import QuickInfo.Proofs.Listing.Filtered

/-!
# Display names in filtered listings

A filtered listing is made for a name as it is stored. Where that is also the name that is shown,
the listing is that for the display name. Indexers, constructors and destructors are shown by other
names, if they are not stored under these, and operators always are.
-/
namespace QuickInfo

/-- The token of an operator is no part of its identifier. -/
theorem Operator.operator_token_ne_identifier (o : Operator) :
    "operator " ++ o.token ≠ o.identifier := by
  cases o <;> decide

/-- A conversion is shown with its token first. -/
theorem Operator.token_append_ne_identifier {o : Operator} (ho : o.isConversion) (text : String) :
    o.token ++ text ≠ o.identifier := by
  intro h
  have hfirst := congrArg (fun s : String => s.toList.head?) h
  cases o <;> simp [isConversion, token, identifier, name] at ho hfirst

/-- The member is stored under the name by which it is shown. No operator is. -/
def MemberDocument.StoresDisplayName (declaring : TypeHeader) (m : MemberDocument) : Prop :=
  match m.kind with
  | .method | .property | .field | .event => True
  | .indexer => m.name = "this"
  | .constructor => m.name = declaring.name
  | .destructor => m.name = "~" ++ declaring.name
  | .operator => False

theorem memberNameText_operator_ne {f : Facets} {p : Project} {declaring : TypeHeader}
    {m : MemberDocument} (h : m.kind = .operator) :
    memberNameText f p declaring m ≠ m.name := by
  intro hname
  simp only [memberNameText, h] at hname
  split at hname
  · have hlength := congrArg String.length hname
    simp at hlength
  · next o ho =>
    rw [Operator.ofIdentifier?_eq_some_iff.1 ho] at hname
    split at hname
    · next hconversion =>
      rw [String.append_assoc] at hname
      exact Operator.token_append_ne_identifier hconversion _ hname
    · exact Operator.operator_token_ne_identifier o hname

theorem memberNameText_eq_name_iff {f : Facets} {p : Project} {declaring : TypeHeader}
    {m : MemberDocument} :
    memberNameText f p declaring m = m.name ↔ m.StoresDisplayName declaring := by
  cases hkind : m.kind with
  | operator =>
    rw [MemberDocument.StoresDisplayName, hkind]
    exact iff_of_false (memberNameText_operator_ne hkind) id
  | method | property | field | event =>
    simp [memberNameText, MemberDocument.StoresDisplayName, hkind]
  | indexer | constructor | destructor =>
    simp [memberNameText, MemberDocument.StoresDisplayName, hkind, eq_comm]

/-- The entities of the lines of a filtered listing, in their order. -/
def Listing.selected (p : Project) (w : String) : List Entity :=
  ((entries p).filter (isSelected (some w))).map fun e => e.entity

namespace Project

variable {p : Project}

/-- The name by which an entity is shown. -/
def displayName? (f : Facets) (p : Project) : Entity → Option String
  | .type i => (p.definition? i).map fun d => d.name
  | .member i => do
    let d ← p.definition? i.declaringType
    let m ← p.member? i
    return memberNameText f p d.toTypeHeader m.toMemberDocument

/-- The entity is stored under the name by which it is shown. -/
def StoresDisplayName (p : Project) : Entity → Prop
  | .type _ => True
  | .member i => ∀ {d m}, p.definition? i.declaringType = some d → p.member? i = some m →
    m.toMemberDocument.StoresDisplayName d.toTypeHeader

theorem displayName?_eq_storedName?_iff {f : Facets} {x : Entity} (hx : p.Has x) :
    p.displayName? f x = p.storedName? x ↔ p.StoresDisplayName x := by
  cases x with
  | type i => exact iff_of_true rfl trivial
  | member i =>
    obtain ⟨d, m, hd, hm⟩ := exists_of_has_member hx
    have hdisplay : p.displayName? f (.member i) =
        some (memberNameText f p d.toTypeHeader m.toMemberDocument) := by
      simp [displayName?, hd, hm]
    rw [hdisplay, storedName?, hm, Option.map_some, Option.some.injEq, memberNameText_eq_name_iff]
    constructor
    · intro h d' m' hd' hm'
      obtain rfl := Option.some.inj (hd.symm.trans hd')
      obtain rfl := Option.some.inj (hm.symm.trans hm')
      exact h
    · exact fun h => h hd hm

/-- The qualified name of a member is longer than its own one. -/
theorem storedName?_ne_dottedName? {i : MemberId} (h : p.Has (.member i)) :
    p.storedName? (.member i) ≠ p.dottedName? (.member i) := by
  obtain ⟨d, m, hd, hm⟩ := exists_of_has_member h
  intro heq
  have hlength := congrArg (Option.map String.length) heq
  simp [storedName?, dottedName?, hd, hm] at hlength

/-- A listing for stored names is one for display names exactly if they are the same. -/
theorem forall_named_iff {f : Facets} {x : Entity} (hx : p.Has x) :
    (∀ w, p.Named w x ↔ p.displayName? f x = some w ∨ p.dottedName? x = some w) ↔
      p.displayName? f x = p.storedName? x := by
  constructor
  · intro h
    cases x with
    | type i => rfl
    | member i =>
      obtain ⟨-, m, -, hm⟩ := exists_of_has_member hx
      have hstored : p.storedName? (.member i) = some m.name := by
        rw [storedName?, hm, Option.map_some]
      rcases (h m.name).1 (.inl hstored) with hdisplay | hdotted
      · exact hdisplay.trans hstored.symm
      · exact absurd (hstored.trans hdotted.symm) (storedName?_ne_dottedName? hx)
  · intro h w
    rw [Named, h]

theorem Arena.mem_selected_iff (hp : p.Arena) {w : String} {x : Entity} (hx : p.Has x) :
    x ∈ Listing.selected p w ↔ p.Named w x := by
  rw [Listing.selected, hp.map_filter_isSelected, List.mem_filter, hp.mem_entities_iff,
    and_iff_right hx, decide_eq_true_iff]

end Project

variable {p : Project}

/-- The lines of a filtered listing are those of the selected entities. An entity is selected by its
display name and its qualified name, and by no other, exactly if it is stored under its display
name. -/
theorem selected_by_displayName_iff (h : p.Reachable) (f : Facets)
    (hall : ∃ text, listing f p none = .ok text) :
    (∀ w, ∃ texts : Entity → String,
      (∀ x ∈ Listing.selected p w, entityText f p x = .ok (texts x)) ∧
      listing f p (some w) =
        .ok (String.join ((Listing.selected p w).map fun x => texts x ++ "\n"))) ∧
      ∀ x, p.Has x →
        ((∀ w, x ∈ Listing.selected p w ↔
            p.displayName? f x = some w ∨ p.dottedName? x = some w) ↔
          p.StoresDisplayName x) := by
  have hp := h.wellFormed.toArena
  obtain ⟨text, htext⟩ := hall
  obtain ⟨texts, htexts, -⟩ := hp.listing_none_eq_ok_iff.1 htext
  refine ⟨fun w => ⟨texts, ?_, ?_⟩, fun x hx => ?_⟩
  · intro x hx
    rw [Listing.selected, hp.map_filter_isSelected] at hx
    exact htexts x (List.mem_filter.1 hx).1
  · rw [Listing.selected, hp.map_filter_isSelected]
    exact hp.listing_eq_ok fun x hx _ => htexts x hx
  · rw [← Project.displayName?_eq_storedName?_iff hx, ← Project.forall_named_iff (f := f) hx]
    simp only [hp.mem_selected_iff hx]

/-- A class with an indexer, stored under the given name, and a method. -/
def tableDocument (name : String) : TypeDocument where
  kind := .classType
  name := "Table"
  ns := "Acme"
  members :=
    [{ kind := .indexer, name := name, returnType := .named "System.Int32" [],
       parameters := [{ name := "index", type := .named "System.Int32" [], modifier := none }] },
     { kind := .method, name := "Run" }]

def tableProject (name : String) : Project :=
  ((∅ : Project).perform (Project.addType (tableDocument name) none)).2

theorem reachable_tableProject (name : String) : (tableProject name).Reachable :=
  Project.Reachable.empty.add _ _

/-- Stored as `this`, the indexer is selected by its display name, as methods always are. -/
theorem selected_by_displayName_table :
    (tableProject "this").Reachable ∧
      (∃ text, listing .standard (tableProject "this") none = .ok text) ∧
      ∀ w, .member ⟨⟨0⟩, 0⟩ ∈ Listing.selected (tableProject "this") w ↔
        w = "this" ∨ w = "Acme.Table.this" := by
  have hr := reachable_tableProject "this"
  have hall : listing .standard (tableProject "this") none =
      .ok "class Table\n  int this[int index]\n  void Run()\n" := by decide +kernel
  have hmember : ((tableProject "this").member? ⟨⟨0⟩, 0⟩).isSome := by decide +kernel
  have hhas : (tableProject "this").Has (.member ⟨⟨0⟩, 0⟩) := hmember
  have hdisplay : (tableProject "this").displayName? .standard (.member ⟨⟨0⟩, 0⟩) = some "this" := by
    decide +kernel
  have hstored : (tableProject "this").storedName? (.member ⟨⟨0⟩, 0⟩) = some "this" := by
    decide +kernel
  have hdotted : (tableProject "this").dottedName? (.member ⟨⟨0⟩, 0⟩) = some "Acme.Table.this" := by
    decide +kernel
  refine ⟨hr, ⟨_, hall⟩, fun w => ?_⟩
  obtain ⟨-, hselected⟩ := selected_by_displayName_iff hr .standard ⟨_, hall⟩
  have hstores : (tableProject "this").StoresDisplayName (.member ⟨⟨0⟩, 0⟩) :=
    (Project.displayName?_eq_storedName?_iff hhas).1 (hdisplay.trans hstored.symm)
  have hw := (hselected _ hhas).2 hstores w
  rw [hdisplay, hdotted] at hw
  simpa [eq_comm] using hw

/-- Stored as `Item`, the indexer is shown as `this` and not listed for that name. -/
theorem displayed_indexer_left_out :
    (tableProject "Item").Reachable ∧
      (∃ text, listing .standard (tableProject "Item") none = .ok text) ∧
      (tableProject "Item").displayName? .standard (.member ⟨⟨0⟩, 0⟩) = some "this" ∧
      listing .standard (tableProject "Item") (some "this") = .ok "" := by
  have hall : listing .standard (tableProject "Item") none =
      .ok "class Table\n  int this[int index]\n  void Run()\n" := by decide +kernel
  exact ⟨reachable_tableProject "Item", ⟨_, hall⟩, by decide +kernel⟩

end QuickInfo
