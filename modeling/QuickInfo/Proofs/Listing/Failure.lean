import QuickInfo.Proofs.Listing.Filtered

/-!
# Why there is no listing

A listing fails at the first of its entities that has no declaration text. In a project this is a
type without header, a delegate or a module whose keyword is wanted, and never a member.
-/
namespace QuickInfo

open Listing (Entry)

namespace Listing

variable {f : Facets} {p : Project} {wanted : Option String} {e : Error}

/-- Lines fail at the first entity, or it has a text and they fail at another one. -/
theorem lines_cons_eq_error_iff {x : Entry} {es : List Entry} :
    lines f p wanted (x :: es) = .error e ↔
      (x.dotted = e.dotted ∧ entityText f p x.entity = .error e.cause) ∨
        ((∃ t, entityText f p x.entity = .ok t) ∧ lines f p wanted es = .error e) := by
  rw [lines, line]
  cases entityText f p x.entity with
  | error c =>
    obtain ⟨dotted, cause⟩ := e
    simp [bind, Except.bind]
  | ok t => cases lines f p wanted es <;> simp [bind, Except.bind, pure, Except.pure]

/-- Lines fail at the first entity that has no text. -/
theorem lines_eq_error_iff {es : List Entry} :
    lines f p wanted es = .error e ↔ ∃ before x after, es = before ++ x :: after ∧
      (∀ y ∈ before, ∃ t, entityText f p y.entity = .ok t) ∧
      x.dotted = e.dotted ∧ entityText f p x.entity = .error e.cause := by
  induction es with
  | nil => simp [lines]
  | cons x es ih =>
    rw [lines_cons_eq_error_iff, ih]
    constructor
    · rintro (⟨hdotted, hcause⟩ | ⟨hx, before, y, after, rfl, hbefore, hy⟩)
      · exact ⟨[], x, es, rfl, by simp, hdotted, hcause⟩
      · exact ⟨x :: before, y, after, rfl, List.forall_mem_cons.2 ⟨hx, hbefore⟩, hy⟩
    · rintro ⟨before, y, after, hes, hbefore, hy⟩
      cases before with
      | nil =>
        obtain ⟨rfl, -⟩ := List.cons.inj hes
        exact .inl hy
      | cons z before =>
        obtain ⟨rfl, rfl⟩ := List.cons.inj hes
        obtain ⟨hx, hbefore⟩ := List.forall_mem_cons.1 hbefore
        exact .inr ⟨hx, before, y, after, rfl, hbefore, hy⟩

theorem listing_eq_error_iff :
    listing f p wanted = .error e ↔
      lines f p wanted ((entries p).filter (isSelected wanted)) = .error e := by
  rw [listing]
  cases lines f p wanted ((entries p).filter (isSelected wanted)) <;>
    simp [bind, Except.bind, pure, Except.pure]

end Listing

namespace Project

/-- The entity is selected for a listing: no name is wanted, or it has the wanted one. -/
def Selected (p : Project) (wanted : Option String) (x : Entity) : Prop :=
  match wanted with
  | none => True
  | some w => p.Named w x

instance (p : Project) (wanted : Option String) (x : Entity) : Decidable (p.Selected wanted x) :=
  match wanted with
  | none => .isTrue trivial
  | some w => inferInstanceAs (Decidable (p.Named w x))

/-- The entity is a type that has no header: a delegate, or a module if the keyword is wanted. -/
def LacksHeader (f : Facets) (p : Project) : Entity → Prop
  | .type i => ∃ d, p.definition? i = some d ∧
      (d.kind = .delegateType ∨ d.kind = .moduleType ∧ .definitionKeyword ∈ f)
  | .member _ => False

namespace Arena

variable {f : Facets} {p : Project} {wanted : Option String} {x : Entity} (hp : p.Arena)

include hp

/-- The entities of the selected entries are the selected entities. -/
theorem map_filter_entries (wanted : Option String) :
    ((Listing.entries p).filter (Listing.isSelected wanted)).map (fun e => e.entity) =
      (Listing.entities p).filter fun x => p.Selected wanted x := by
  cases wanted with
  | none =>
    rw [Listing.filter_isSelected_none]
    exact (List.filter_eq_self.2 fun _ _ => rfl).symm
  | some w => exact hp.map_filter_isSelected w

/-- What is part of a project has no text for lack of a header only. -/
theorem exists_error_iff (hx : p.Has x) :
    (∃ c, entityText f p x = .error c) ↔ p.LacksHeader f x := by
  simp only [hp.entityText_eq_error_iff]
  constructor
  · rintro ⟨c, hc⟩
    cases hc with
    | unknownType hnone => simp [Has, hnone] at hx
    | unknownMember hnone => simp [Has, hnone] at hx
    | delegateType hd hkind => exact ⟨_, hd, .inl hkind⟩
    | moduleType hd hkind hf => exact ⟨_, hd, .inr ⟨hkind, hf⟩⟩
  · intro h
    cases x with
    | type i =>
      obtain ⟨d, hd, hkind | ⟨hkind, hf⟩⟩ := h
      · exact ⟨_, .delegateType hd hkind⟩
      · exact ⟨_, .moduleType hd hkind hf⟩
    | member i => exact h.elim

theorem exists_text_iff (hx : p.Has x) :
    (∃ t, entityText f p x = .ok t) ↔ ¬p.LacksHeader f x := by
  rw [← hp.exists_error_iff hx]
  cases entityText f p x <;> simp

/-- What is reported about a type without text: that it is a delegate, or that it is a module. -/
theorem message_of_entityText {i : TypeId} {d : TypeDefinition} (hd : p.definition? i = some d)
    {c : DeclarationError} (h : entityText f p (.type i) = .error c) :
    (d.kind = .delegateType ∧ c.message = "internal inconsistency: " ++ d.name ++
        " is a delegate and has no type declaration header") ∨
      (d.kind = .moduleType ∧
        c.message = "internal inconsistency: invalid class type Module for " ++ d.name) := by
  cases hp.entityText_type_eq_error_iff.1 h with
  | unknownType hnone => cases hd.symm.trans hnone
  | delegateType hd' hkind =>
    obtain rfl := Option.some.inj (hd.symm.trans hd')
    exact .inl ⟨hkind, (String.append_assoc ..).symm⟩
  | moduleType hd' hkind hf =>
    obtain rfl := Option.some.inj (hd.symm.trans hd')
    refine .inr ⟨hkind, ?_⟩
    have hwords : "internal inconsistency: invalid class type Module for " =
        "internal inconsistency: " ++ "invalid class type Module for " := by decide
    rw [hwords, String.append_assoc]
    rfl

/-- A listing fails at the first selected entity that has no text. -/
theorem listing_eq_error_iff {e : Listing.Error} :
    listing f p wanted = .error e ↔ ∃ before x after,
      ((Listing.entities p).filter fun x => p.Selected wanted x) = before ++ x :: after ∧
        (∀ y ∈ before, ∃ t, entityText f p y = .ok t) ∧
        p.dottedName? x = some e.dotted ∧ entityText f p x = .error e.cause := by
  have hentry : ∀ {x}, x ∈ (Listing.entries p).filter (Listing.isSelected wanted) →
      p.dottedName? x.entity = some x.dotted := fun hx =>
    (hp.entry_of_mem (List.mem_filter.1 hx).1).2.1
  rw [Listing.listing_eq_error_iff, Listing.lines_eq_error_iff, ← hp.map_filter_entries wanted]
  constructor
  · rintro ⟨before, x, after, hsplit, hbefore, hdotted, hcause⟩
    rw [hsplit] at hentry ⊢
    refine ⟨_, x.entity, _, by rw [List.map_append, List.map_cons], ?_, ?_, hcause⟩
    · exact List.forall_mem_map.2 hbefore
    · rw [hentry (by simp), hdotted]
  · rintro ⟨before, x, after, hsplit, hbefore, hdotted, hcause⟩
    obtain ⟨es, rest, hes, rfl, hrest⟩ := List.map_eq_append_iff.1 hsplit
    obtain ⟨y, ys, rfl, rfl, rfl⟩ := List.map_eq_cons_iff.1 hrest
    rw [hes] at hentry
    refine ⟨es, y, ys, hes, fun z hz => hbefore _ (List.mem_map_of_mem hz), ?_, hcause⟩
    rw [hentry (by simp)] at hdotted
    exact Option.some.inj hdotted

theorem mem_filter_selected_iff :
    x ∈ (Listing.entities p).filter (fun x => p.Selected wanted x) ↔
      p.Has x ∧ p.Selected wanted x := by
  rw [List.mem_filter, hp.mem_entities_iff, decide_eq_true_iff]

/-- There is a listing if no selected entity lacks a header. -/
theorem exists_listing_iff :
    (∃ text, listing f p wanted = .ok text) ↔
      ∀ x, p.Has x → p.Selected wanted x → ¬p.LacksHeader f x := by
  have hentries := hp.map_filter_entries wanted
  constructor
  · rintro ⟨text, htext⟩ x hx hselected
    have hmem := hp.mem_filter_selected_iff.2 ⟨hx, hselected⟩
    rw [← hentries] at hmem
    obtain ⟨e, he, rfl⟩ := List.mem_map.1 hmem
    exact (hp.exists_text_iff hx).1 (Listing.exists_text_of_listing htext e he)
  · intro h
    refine ⟨_, Listing.listing_of_texts fun e he => Listing.entityText_eq_textOf ?_⟩
    have hmem := List.mem_map_of_mem (f := fun e => e.entity) he
    rw [hentries] at hmem
    obtain ⟨hx, hselected⟩ := hp.mem_filter_selected_iff.1 hmem
    exact (hp.exists_text_iff hx).2 (h _ hx hselected)

end Arena

/-- The report of a failure at a type tells the qualified name of the type. -/
theorem dottedName?_eq_iff {p : Project} {i : TypeId} {d : TypeDefinition}
    (hd : p.definition? i = some d) {e : Listing.Error} :
    p.dottedName? (.type i) = some e.dotted ↔
      e.message = "failed to convert " ++ Text.substitute '+' '.' (p.reflectionName d) ++ ": " ++
        e.cause.message := by
  have hmessage : e.message = "failed to convert " ++ e.dotted ++ ": " ++ e.cause.message := rfl
  rw [hmessage, String.append_left_inj, String.append_left_inj, String.append_right_inj, dottedName?,
    hd, Option.map_some, Option.some.injEq, eq_comm]

end Project

/-- There is no listing exactly if a selected type has no header; members always have a text. The
failure is that of the first such type in the order of the listing, and it is reported with the
qualified name of this type and the words for its kind. -/
theorem listing_failure {p : Project} (h : p.Reachable) (f : Facets) (wanted : Option String) :
    ((¬∃ text, listing f p wanted = .ok text) ↔
      ∃ x, p.Has x ∧ p.Selected wanted x ∧ p.LacksHeader f x) ∧
      (∀ {i}, p.Has (.member i) → ∃ t, entityText f p (.member i) = .ok t) ∧
      (∀ {i d c}, p.definition? i = some d → entityText f p (.type i) = .error c →
        (d.kind = .delegateType ∧ c.message = "internal inconsistency: " ++ d.name ++
            " is a delegate and has no type declaration header") ∨
          (d.kind = .moduleType ∧
            c.message = "internal inconsistency: invalid class type Module for " ++ d.name)) ∧
      ∀ {e}, listing f p wanted = .error e ↔ ∃ before i d after,
        ((Listing.entities p).filter fun x => p.Selected wanted x) =
            before ++ .type i :: after ∧
          (∀ x ∈ before, ¬p.LacksHeader f x) ∧
          p.definition? i = some d ∧ p.LacksHeader f (.type i) ∧
          entityText f p (.type i) = .error e.cause ∧
          e.message = "failed to convert " ++ Text.substitute '+' '.' (p.reflectionName d) ++ ": " ++
            e.cause.message := by
  have hp := h.wellFormed.toArena
  have hhas : ∀ {before x after}, ((Listing.entities p).filter fun x => p.Selected wanted x) =
      before ++ x :: after → ∀ y ∈ before ++ x :: after, p.Has y := by
    intro before x after hsplit y hy
    exact (hp.mem_filter_selected_iff.1 (hsplit ▸ hy)).1
  refine ⟨?_, fun hi => (hp.exists_text_iff hi).2 id, fun hd => hp.message_of_entityText hd, ?_⟩
  · rw [hp.exists_listing_iff]
    simp only [not_forall, not_not, exists_prop]
  · intro e
    rw [hp.listing_eq_error_iff]
    constructor
    · rintro ⟨before, x, after, hsplit, hbefore, hdotted, hcause⟩
      have hx := hhas hsplit x (by simp)
      have hheader := (hp.exists_error_iff hx).1 ⟨_, hcause⟩
      cases x with
      | member i => exact hheader.elim
      | type i =>
        obtain ⟨d, hd⟩ := Option.isSome_iff_exists.1 hx
        refine ⟨before, i, d, after, hsplit, fun y hy => ?_, hd, hheader, hcause,
          (Project.dottedName?_eq_iff hd).1 hdotted⟩
        exact (hp.exists_text_iff (hhas hsplit y (by simp [hy]))).1 (hbefore y hy)
    · rintro ⟨before, i, d, after, hsplit, hbefore, hd, -, hcause, hmessage⟩
      refine ⟨before, .type i, after, hsplit, fun y hy => ?_,
        (Project.dottedName?_eq_iff hd).2 hmessage, hcause⟩
      exact (hp.exists_text_iff (hhas hsplit y (by simp [hy]))).2 (hbefore y hy)

/-- Without keywords the listing fails behind the module, at the delegate nested in it, and with
keywords at the module; for the name of the method of the delegate there is a listing even so. -/
theorem listing_failure_tools :
    toolsProject.Reachable ∧
      listing ∅ toolsProject none = .error ⟨"Acme.Tools.Handler", .delegateHeader "Handler"⟩ ∧
      Listing.Error.message ⟨"Acme.Tools.Handler", .delegateHeader "Handler"⟩ =
        "failed to convert Acme.Tools.Handler: internal inconsistency: Handler is a delegate " ++
          "and has no type declaration header" ∧
      (¬∃ text, listing .everything toolsProject (some "Tools") = .ok text) ∧
      (∃ e, listing .everything toolsProject (some "Tools") = .error e ∧ e.message =
        "failed to convert Acme.Tools: internal inconsistency: invalid class type Module for " ++
          "Tools") ∧
      ∃ text, listing .everything toolsProject (some "Invoke") = .ok text := by
  have hr : toolsProject.Reachable := Project.Reachable.empty.add toolsDocument none
  have hlt : 1 < toolsProject.types.size := by decide
  have htools : toolsProject.definition? ⟨0⟩ = some toolsProject.types[0] := rfl
  have hhandler : toolsProject.definition? ⟨1⟩ = some toolsProject.types[1] := rfl
  refine ⟨hr, ?_, by decide, ?_, ⟨⟨"Acme.Tools", .moduleKeyword "Tools"⟩, ?_, by decide⟩, ?_⟩
  · have hentities : ((Listing.entities toolsProject).filter fun x =>
        toolsProject.Selected none x) =
        [.type ⟨0⟩, .member ⟨⟨0⟩, 0⟩] ++ .type ⟨1⟩ :: [.member ⟨⟨1⟩, 0⟩] := by decide +kernel
    have hmessage := (Project.dottedName?_eq_iff hhandler
      (e := ⟨"Acme.Tools.Handler", .delegateHeader "Handler"⟩)).1 (by decide +kernel)
    have hbefore : ∀ x ∈ [.type ⟨0⟩, .member ⟨⟨0⟩, 0⟩], ¬toolsProject.LacksHeader ∅ x := by
      intro x hx
      rcases List.mem_pair.1 hx with rfl | rfl
      · rintro ⟨d, hd, hkind⟩
        obtain rfl := Option.some.inj (htools.symm.trans hd)
        rcases hkind with hkind | ⟨-, hkeyword⟩
        · cases hkind
        · cases hkeyword
      · exact id
    exact (listing_failure hr ∅ none).2.2.2.2 ⟨_, _, _, _, hentities, hbefore, hhandler,
      ⟨_, hhandler, .inl rfl⟩, by decide +kernel, hmessage⟩
  · have hheader : toolsProject.LacksHeader .everything (.type ⟨0⟩) :=
      ⟨_, htools, .inr ⟨rfl, rfl⟩⟩
    exact (listing_failure hr .everything (some "Tools")).1.2
      ⟨_, by rw [Project.Has, htools]; rfl, by decide +kernel, hheader⟩
  · decide +kernel
  · by_contra hnone
    obtain ⟨x, hx, hselected, hheader⟩ :=
      (listing_failure hr .everything (some "Invoke")).1.1 hnone
    have hmem := hr.wellFormed.mem_filter_selected_iff.2 ⟨hx, hselected⟩
    have hentities : ((Listing.entities toolsProject).filter fun x =>
        toolsProject.Selected (some "Invoke") x) = [.member ⟨⟨1⟩, 0⟩] := by decide +kernel
    rw [hentities, List.mem_singleton] at hmem
    rw [hmem] at hheader
    exact hheader

end QuickInfo
