import QuickInfo.Proofs.Project.WellFormed
import QuickInfo.Workspace

/-!
# Additions are all or nothing

A refused document leaves the project exactly as it was, whatever is nested in it. An accepted one
adds its types behind all others, in their order and under new keys, and is noted in its enclosing
type; everything else stays.
-/
namespace QuickInfo

namespace TypeDocument

mutual

/-- What is nested in a document is declared in types that arrive with it. -/
theorem outer_arrivals {m n : Nat} {s : Scope} {outer : TypeId} (ho : m ≤ outer.index)
    (hn : m ≤ n) :
    ∀ d : TypeDocument, ∀ a ∈ d.arrivals s (some outer) n, ∃ o, a.outer = some o ∧ m ≤ o.index
  | ⟨header, ownNs, members, nested⟩ => by
    rw [arrivals]
    refine List.forall_mem_cons.2 ⟨⟨outer, rfl, ho⟩, ?_⟩
    exact outer_arrivalsAll hn (Nat.le_succ_of_le hn) nested

theorem outer_arrivalsAll {m n : Nat} {s : Scope} {outer : TypeId} (ho : m ≤ outer.index)
    (hn : m ≤ n) :
    ∀ ds : List TypeDocument, ∀ a ∈ arrivalsAll s (some outer) n ds,
      ∃ o, a.outer = some o ∧ m ≤ o.index
  | [] => by simp [arrivalsAll]
  | d :: ds => by
    rw [arrivalsAll]
    exact List.forall_mem_append.2
      ⟨outer_arrivals ho hn d, outer_arrivalsAll ho (Nat.le_add_right_of_le hn) ds⟩

end

/-- Of the types of a document only the outermost one is declared in an earlier type. -/
theorem filter_arrivals (s : Scope) (outer : Option TypeId) {n : Nat} {i : TypeId}
    (hi : i.index < n) (d : TypeDocument) :
    ((d.arrivals s outer n).filter (·.outer = some i)).map (·.id) =
      if outer = some i then [⟨n⟩] else [] := by
  obtain ⟨header, ownNs, members, nested⟩ := d
  have hnested : (arrivalsAll (s.inside header.name) (some ⟨n⟩) (n + 1) nested).filter
      (·.outer = some i) = [] := by
    rw [List.filter_eq_nil_iff]
    intro a ha
    have hlt : n ≤ (⟨n⟩ : TypeId).index := Nat.le_refl n
    obtain ⟨o, ho, hle⟩ := outer_arrivalsAll hlt (Nat.le_succ n) nested a ha
    have hne : o ≠ i := by
      rintro rfl
      omega
    simpa [ho] using hne
  rw [arrivals, List.filter_cons]
  by_cases ho : outer = some i <;> simp [ho, hnested]

end TypeDocument

namespace Project

/-- The one project with the types of a document, in the given scope and enclosing type, is the
other. -/
structure Added (p : Project) (s : Scope) (outer : Option TypeId) (d : TypeDocument)
    (q : Project) : Prop where
  size_eq : q.size = p.size + d.preorder.length
  /-- The definitions of before are unchanged, but the enclosing type has the first of the new types
  behind its nested types. -/
  old : ∀ {i e}, p.definition? i = some e →
    q.definition? i = some
      (if outer = some i then { e with nestedTypes := e.nestedTypes ++ [⟨p.size⟩] } else e)
  /-- Each type of the document is there as the document has it, under a key that is new. -/
  new : ∀ {k e}, d.preorder[k]? = some e →
    ∃ a t, (d.arrivals s outer p.size)[k]? = some a ∧ a.document = e ∧ p.find? a.key = none ∧
      q.definition? ⟨p.size + k⟩ = some t ∧ q.key t = a.key ∧ t.toTypeHeader = e.toTypeHeader ∧
      t.ns = s.ns ∧ t.declaringType = a.outer ∧
      t.members.map (·.toMemberDocument) = e.members
  /-- The index finds what it found before, and the new types. -/
  find?_iff : ∀ {key i}, q.find? key = some i ↔
    p.find? key = some i ∨
      ∃ k a, (d.arrivals s outer p.size)[k]? = some a ∧ a.key = key ∧ i = ⟨p.size + k⟩

variable {p : Project}

theorem members_definition (a : Arrival) (ns : String) :
    (a.definition ns).members.map (·.toMemberDocument) = a.document.members := by
  apply List.ext_getElem?
  intro j
  simp [Arrival.definition, TypeDocument.definition, Function.comp_def]

/-- An index has what it had before, and the types of the document. -/
theorem WellFormed.find?_insert_iff (hp : p.WellFormed) {d : TypeDocument} {outer : Option TypeId}
    {s : Scope} {keys : List TypeKey} (hs : p.scope d outer = .ok s)
    (hv : p.validate s [] d = .ok keys) {key : TypeKey} {i : TypeId} :
    (p.insert s.ns outer d).find? key = some i ↔
      p.find? key = some i ∨
        ∃ k a, (d.arrivals s outer p.size)[k]? = some a ∧ a.key = key ∧ i = ⟨p.size + k⟩ := by
  have hq := hp.insert hs hv
  obtain ⟨hpush, hkeys⟩ := hp.toArena.pushes_insert hs
  by_cases hi : i.index < p.size
  · rw [hp.find?_within hq keepsNames_bare hpush.extension.within hi]
    refine ⟨.inl, ?_⟩
    rintro (hf | ⟨k, a, -, -, rfl⟩)
    · exact hf
    · exact absurd hi (Nat.not_lt.2 (Nat.le_add_right p.size k))
  · have hnone : p.find? key ≠ some i := fun hf => hi (hp.index_lt_of_find? hf)
    rw [hq.find?_eq_some_iff_key]
    constructor
    · rintro ⟨e, he, hke⟩
      obtain ⟨k, hk⟩ : ∃ k, i.index = p.size + k := ⟨i.index - p.size, by omega⟩
      have hlt := index_lt_of_definition? he
      rw [size_insert hs, hk, Nat.add_lt_add_iff_left,
        ← TypeDocument.length_arrivals s outer p.size] at hlt
      have ha := List.getElem?_eq_getElem hlt
      obtain ⟨ids, hdef⟩ := definition?_insert_new hs ha
      have hii : i = ⟨p.size + k⟩ := hk ▸ rfl
      rw [hii, hdef, Option.some.injEq] at he
      refine .inr ⟨k, _, ha, ?_, hii⟩
      rw [← hkeys _ (List.mem_of_getElem? ha), ← hke, ← he]
      rfl
    · rintro (hf | ⟨k, a, hk, hka, rfl⟩)
      · exact absurd hf hnone
      · obtain ⟨ids, hdef⟩ := definition?_insert_new hs hk
        exact ⟨_, hdef, (hkeys a (List.mem_of_getElem? hk)).trans hka⟩

/-- Of an old definition only the list of nested types changes, and only if the document is declared
in the type. -/
theorem definition?_insert_old {d : TypeDocument} {outer : Option TypeId} {s : Scope}
    (hs : p.scope d outer = .ok s) {i : TypeId} {e : TypeDefinition}
    (he : p.definition? i = some e) :
    (p.insert s.ns outer d).definition? i = some
      (if outer = some i then { e with nestedTypes := e.nestedTypes ++ [⟨p.size⟩] } else e) := by
  have hfilter : (((d.arrivals s outer p.size).map (Arrival.definition s.ns)).filter
      (·.declaringType = some i)).map (·.id) = if outer = some i then [⟨p.size⟩] else [] := by
    rw [List.filter_map, List.map_map]
    exact TypeDocument.filter_arrivals s outer (index_lt_of_definition? he) d
  rw [(pushes_insert (scope_eq_ok hs).1 s d).definition?_old he, hfilter]
  by_cases ho : outer = some i
  · simp [ho]
  · simp [ho]

/-- An accepted document is added and nothing else changes. -/
theorem WellFormed.added (hp : p.WellFormed) {d : TypeDocument} {outer : Option TypeId} {s : Scope}
    {keys : List TypeKey} (hs : p.scope d outer = .ok s) (hv : p.validate s [] d = .ok keys) :
    p.Added s outer d (p.insert s.ns outer d) := by
  obtain ⟨-, hkeys⟩ := hp.toArena.pushes_insert hs
  have hcheck := hv
  rw [validate_eq_checkAll s outer p.size, checkAll_eq_ok_iff] at hcheck
  obtain ⟨-, ⟨hfree, -⟩, -⟩ := hcheck
  refine ⟨size_insert hs, definition?_insert_old hs, ?_, hp.find?_insert_iff hs hv⟩
  intro k e hk
  rw [← TypeDocument.document_arrivals s outer p.size d, List.getElem?_map,
    Option.map_eq_some_iff] at hk
  obtain ⟨a, hk, rfl⟩ := hk
  have ha := List.mem_of_getElem? hk
  obtain ⟨ids, hdef⟩ := definition?_insert_new hs hk
  exact ⟨a, _, hk, rfl, (hfree a ha).1, hdef, hkeys a ha, rfl, rfl, rfl, members_definition a s.ns⟩

/-- An addition is refused and changes nothing, or adds the whole document and nothing else. -/
theorem addType_all_or_nothing (h : p.Reachable) (d : TypeDocument) (outer : Option TypeId) :
    (∀ {e q}, p.perform (addType d outer) = (.error e, q) → q = p) ∧
      ∀ {i q}, p.perform (addType d outer) = (.ok i, q) →
        i = ⟨p.size⟩ ∧ ∃ s, p.scope d outer = .ok s ∧ p.Added s outer d q := by
  obtain ⟨e, he⟩ | ⟨s, keys, hs, hv, hadd⟩ := perform_addType_cases p d outer
  · rw [he]
    constructor
    · intro e' q hq
      exact (Prod.mk.inj hq).2.symm
    · intro i q hq
      cases (Prod.mk.inj hq).1
  · rw [hadd]
    constructor
    · intro e q hq
      cases (Prod.mk.inj hq).1
    · intro i q hq
      obtain ⟨hi, rfl⟩ := Prod.mk.inj hq
      exact ⟨(Except.ok.inj hi).symm, s, hs, h.wellFormed.added hs hv⟩

/-- A second type of a name and arity is refused, a new nested type is added. -/
theorem addType_all_or_nothing_outer :
    ∃ p q : Project, p.Reachable ∧
      p.perform (addType (outerDocument ["U"]) none) = (.error (.duplicateType "Acme.Outer"), p) ∧
      p.perform (addType extraDocument (some ⟨0⟩)) = (.ok ⟨2⟩, q) ∧
      p.Added ⟨"Acme", some "Acme.Outer"⟩ (some ⟨0⟩) extraDocument q := by
  have hr := reachable_outerProject ["T"]
  have hrefused : ((outerProject ["T"]).perform (addType (outerDocument ["U"]) none)).1 =
      .error (.duplicateType "Acme.Outer") := by decide +kernel
  have hadded : ((outerProject ["T"]).perform (addType extraDocument (some ⟨0⟩))).1 = .ok ⟨2⟩ := by
    decide +kernel
  have hscope : (outerProject ["T"]).scope extraDocument (some ⟨0⟩) =
      .ok ⟨"Acme", some "Acme.Outer"⟩ := by decide +kernel
  have hsame := (addType_all_or_nothing hr _ _).1 (Prod.ext hrefused rfl)
  obtain ⟨-, s, hs, hq⟩ := (addType_all_or_nothing hr _ _).2 (Prod.ext hadded rfl)
  obtain rfl := Except.ok.inj (hs.symm.trans hscope)
  exact ⟨_, _, hr, Prod.ext hrefused hsame, Prod.ext hadded rfl, hq⟩

end Project

namespace Workspace

/-- A command that fails changes nothing. -/
theorem run_error {w : Workspace} {α : Type} {c : Command α} {e : WorkspaceError}
    (h : (w.run c).1 = .error e) : (w.run c).2 = w := by
  cases c with
  | addType d outer =>
    obtain ⟨e', he⟩ | ⟨s, keys, -, -, hadd⟩ := Project.perform_addType_cases w.project d outer
    · simp only [run, he]
    · simp only [run, hadd] at h
      cases h
  | replace p => cases h
  | setFacets text =>
    cases hf : Facets.ofText text with
    | ok f =>
      simp only [run, hf] at h
      cases h
    | error e' => simp only [run, hf]
  | _ => rfl

end Workspace

end QuickInfo
