import QuickInfo.Proofs.Project.WellFormed

/-!
# Duplicates

Two types are duplicates if they have the same namespace, the same names of enclosing types, the
same name and the same number of type parameters of their own. The type parameters of the enclosing
types do not count, since references do not write them.
-/
namespace QuickInfo.Project

/-- The keys of the types in their order. -/
def keys (p : Project) : List TypeKey :=
  p.types.toList.map p.key

/-- The full names of the types in their order, each with the number of type parameters. -/
def fullNames (p : Project) : List (QualifiedName × Nat) :=
  p.types.toList.map fun d => (p.qualifiedName d, d.arity)

/-- Where the types are declared, in their order, each with its name and the number of type
parameters. -/
def places (p : Project) : List (Option TypeId × String × String × Nat) :=
  p.types.toList.map fun d => (d.declaringType, d.ns, d.name, d.arity)

/-- The types of the project together with those of a document, allowed or not. -/
def together (p : Project) (d : TypeDocument) (outer : Option TypeId) : Project :=
  match p.scope d outer with
  | .error _ => p
  | .ok s => p.insert s.ns outer d

variable {p q : Project}

theorem mem_types_iff {d : TypeDefinition} :
    d ∈ p.types.toList ↔ ∃ i, p.definition? i = some d := by
  rw [List.mem_iff_getElem?]
  constructor
  · rintro ⟨k, hk⟩
    exact ⟨⟨k⟩, by simpa [definition?] using hk⟩
  · rintro ⟨⟨k⟩, hk⟩
    exact ⟨k, by simpa [definition?] using hk⟩

theorem getElem?_keys (p : Project) (k : Nat) : p.keys[k]? = (p.definition? ⟨k⟩).map p.key := by
  simp [keys, definition?]

theorem exists_scope {outer : Option TypeId} (ho : ∀ o, outer = some o → o.index < p.size)
    (d : TypeDocument) : ∃ s, p.scope d outer = .ok s := by
  cases outer with
  | none => exact ⟨_, rfl⟩
  | some o =>
    obtain ⟨e, he⟩ := exists_definition? (ho o rfl)
    exact ⟨_, by rw [scope, he]⟩

theorem length_keys (p : Project) : p.keys.length = p.size := by
  simp [keys, size]

/-- With valid names, a key stands for a full name. -/
theorem Arena.nodup_keys_iff (hp : p.Arena)
    (hnames : ∀ {i d}, p.definition? i = some d → typeNameFault? d.name = none) :
    p.keys.Nodup ↔ p.fullNames.Nodup := by
  have hkey : ∀ {d e}, d ∈ p.types.toList → e ∈ p.types.toList →
      (p.key d ≠ p.key e ↔ (p.qualifiedName d, d.arity) ≠ (p.qualifiedName e, e.arity)) := by
    intro d e hd he
    obtain ⟨i, hd⟩ := mem_types_iff.1 hd
    obtain ⟨j, he⟩ := mem_types_iff.1 he
    apply not_congr
    constructor
    · intro h
      obtain ⟨hname, harity⟩ := TypeKey.mk.inj h
      have hq := QualifiedName.text_inj (hp.name_valid_of_mem_path hnames hd)
        (hp.name_valid_of_mem_path hnames he) (Arena.path_ne_nil p d) (Arena.path_ne_nil p e) hname
      rw [hq, harity]
    · intro h
      obtain ⟨hq, harity⟩ := Prod.mk.inj h
      rw [key, key, reflectionName, reflectionName, hq, harity]
  rw [keys, fullNames, List.Nodup, List.Nodup, List.pairwise_map, List.pairwise_map]
  exact List.Pairwise.iff_of_mem hkey

namespace WellFormed

theorem mem_keys_iff (hp : p.WellFormed) {key : TypeKey} :
    key ∈ p.keys ↔ p.find? key ≠ none := by
  rw [keys, List.mem_map, ← Option.isSome_iff_ne_none, Option.isSome_iff_exists]
  simp only [mem_types_iff, hp.find?_eq_some_iff_key]
  constructor
  · rintro ⟨d, ⟨i, hd⟩, hkey⟩
    exact ⟨i, d, hd, hkey⟩
  · rintro ⟨i, d, hd, hkey⟩
    exact ⟨d, ⟨i, hd⟩, hkey⟩

theorem nodup_keys (hp : p.WellFormed) : p.keys.Nodup := by
  have hfind : ∀ {k} (hk : k < p.keys.length), p.find? p.keys[k] = some ⟨k⟩ := by
    intro k hk
    have h := p.getElem?_keys k
    rw [List.getElem?_eq_getElem hk, eq_comm, Option.map_eq_some_iff] at h
    exact hp.find?_eq_some_iff_key.2 h
  rw [List.nodup_iff_pairwise_ne, List.pairwise_iff_getElem]
  intro i j hi hj hij heq
  have hj' := hfind hj
  rw [← heq, hfind hi, Option.some.injEq, TypeId.mk.injEq] at hj'
  omega

/-- The types of a document come behind those of the project. -/
theorem keys_insert (hp : p.WellFormed) {d : TypeDocument} {outer : Option TypeId} {s : Scope}
    (hs : p.scope d outer = .ok s) :
    (p.insert s.ns outer d).keys = p.keys ++ (d.arrivals s outer p.size).map (·.key) := by
  obtain ⟨hpush, hkeys⟩ := hp.toArena.pushes_insert hs
  have hq := hpush.arena hp.toArena
  apply List.ext_getElem?
  intro k
  rw [getElem?_keys, List.getElem?_append, length_keys]
  by_cases hk : k < p.size
  · have hlt : (⟨k⟩ : TypeId).index < p.size := hk
    obtain ⟨e, he⟩ := exists_definition? hlt
    obtain ⟨ids, hqe⟩ := hpush.extension _ e he
    rw [if_pos hk, getElem?_keys, he, hqe]
    exact congrArg some (hpush.extension.key_eq hp.toArena hq fun o ho => hp.outer_lt_size he ho)
  · obtain ⟨j, rfl⟩ := Nat.exists_eq_add_of_le (Nat.le_of_not_lt hk)
    rw [if_neg hk, List.getElem?_map, Nat.add_sub_cancel_left]
    cases ha : (d.arrivals s outer p.size)[j]? with
    | none =>
      rw [List.getElem?_eq_none_iff, TypeDocument.length_arrivals] at ha
      have hsize : (p.insert s.ns outer d).size ≤ (⟨p.size + j⟩ : TypeId).index := by
        rw [size_insert hs]
        exact Nat.add_le_add_left ha p.size
      rw [definition?_eq_none_iff.2 hsize]
      rfl
    | some a =>
      obtain ⟨ids, hdef⟩ := definition?_insert_new hs ha
      rw [hdef]
      exact congrArg some (hkeys a (List.mem_of_getElem? ha))

/-- The keys of a document are new and distinct if no two types have the same key afterwards. -/
theorem nodup_keys_insert_iff (hp : p.WellFormed) {d : TypeDocument} {outer : Option TypeId}
    {s : Scope} (hs : p.scope d outer = .ok s) :
    (p.insert s.ns outer d).keys.Nodup ↔ p.Distinct [] (d.arrivals s outer p.size) := by
  rw [hp.keys_insert hs, List.nodup_append, Distinct]
  constructor
  · rintro ⟨-, hnodup, hdisjoint⟩
    refine ⟨fun a ha => ⟨?_, List.not_mem_nil⟩, hnodup⟩
    have hmem : a.key ∉ p.keys := fun hk => hdisjoint _ hk _ (List.mem_map_of_mem ha) rfl
    rwa [hp.mem_keys_iff, Decidable.not_not] at hmem
  · rintro ⟨hfree, hnodup⟩
    refine ⟨hp.nodup_keys, hnodup, fun key hk key' hk' => ?_⟩
    obtain ⟨a, ha, rfl⟩ := List.mem_map.1 hk'
    rintro rfl
    exact hp.mem_keys_iff.1 hk (hfree a ha).1

/-- Names stay valid when a document with valid names is inserted. -/
theorem name_valid_insert (hp : p.WellFormed) {d : TypeDocument} {outer : Option TypeId} {s : Scope}
    (hs : p.scope d outer = .ok s) (hd : ∀ e ∈ d.preorder, e.HasValidNames) {i : TypeId}
    {e : TypeDefinition} (he : (p.insert s.ns outer d).definition? i = some e) :
    typeNameFault? e.name = none := by
  obtain ⟨hpush, -⟩ := hp.toArena.pushes_insert hs
  rcases hpush.definition?_cases he with ⟨e', he', hb⟩ | ⟨e', he', -, hb⟩
  · have hname : e.name = e'.name := congrArg (·.name) hb
    rw [hname]
    exact hp.name_valid he'
  · obtain ⟨a, ha, rfl⟩ := List.mem_map.1 he'
    have hname : e.name = a.document.name := congrArg (·.name) hb
    rw [hname]
    exact (hd _ (TypeDocument.document_mem_preorder ha)).1

end WellFormed

/-- A document with valid names is refused as a duplicate if and only if two types have the same
full name and number of type parameters, among those of the project and those of the document. -/
theorem addType_eq_duplicate_iff (h : p.Reachable) {d : TypeDocument} {outer : Option TypeId}
    (ho : ∀ o, outer = some o → o.index < p.size) (hd : ∀ e ∈ d.preorder, e.HasValidNames) :
    (∃ name, (p.perform (addType d outer)).1 = .error (.duplicateType name)) ↔
      ¬(p.together d outer).fullNames.Nodup := by
  have hp := h.wellFormed
  obtain ⟨s, hs⟩ := exists_scope ho d
  obtain ⟨hpush, -⟩ := hp.toArena.pushes_insert hs
  have hnames : ∀ a ∈ d.arrivals s outer p.size, a.document.HasValidNames := fun a ha =>
    hd _ (TypeDocument.document_mem_preorder ha)
  have htogether : (p.together d outer).fullNames.Nodup ↔
      p.Distinct [] (d.arrivals s outer p.size) := by
    rw [together, hs, ← hp.nodup_keys_insert_iff hs,
      (hpush.arena hp.toArena).nodup_keys_iff (hp.name_valid_insert hs hd)]
  rw [perform_addType, hs, htogether]
  simp only [validate_eq_checkAll s outer p.size]
  constructor
  · rintro ⟨name, hdup⟩ hdistinct
    rw [checkAll_eq_ok_iff.2 ⟨hnames, hdistinct, rfl⟩] at hdup
    cases hdup
  · intro hdistinct
    obtain ⟨a, -, ha⟩ := checkAll_eq_duplicate hnames hdistinct
    exact ⟨a.key.name, by rw [ha]⟩

/-- A generic type is a duplicate of another one in its nested type; below that one it is not. -/
theorem addType_eq_duplicate_iff_outer :
    (outerProject []).Reachable ∧ (∀ e ∈ (outerDocument ["T"]).preorder, e.HasValidNames) ∧
      (∃ name, ((outerProject []).perform (addType (outerDocument ["T"]) none)).1 =
        .error (.duplicateType name)) ∧
      ¬∃ name, ((outerProject []).perform (addType (outerDocument ["T"]) (some ⟨0⟩))).1 =
        .error (.duplicateType name) := by
  have hr := reachable_outerProject []
  have hd : ∀ e ∈ (outerDocument ["T"]).preorder, e.HasValidNames := by decide
  refine ⟨hr, hd, ?_, ?_⟩
  · rw [addType_eq_duplicate_iff hr (by simp) hd]
    decide +kernel
  · have ho : ∀ o, some (⟨0⟩ : TypeId) = some o → o.index < (outerProject []).size := by
      intro o ho
      obtain rfl := Option.some.inj ho
      decide
    rw [addType_eq_duplicate_iff hr ho hd]
    decide +kernel

/-- A generic type and another type of its name cannot both have a nested type of one name, although
no two types are declared at the same place. -/
theorem duplicate_at_distinct_places :
    (outerProject []).Reachable ∧ (∀ e ∈ (outerDocument ["T"]).preorder, e.HasValidNames) ∧
      ((outerProject []).perform (addType (outerDocument ["T"]) none)).1 =
        .error (.duplicateType "Acme.Outer+Inner") ∧
      ((outerProject []).together (outerDocument ["T"]) none).places.Nodup :=
  ⟨reachable_outerProject [], by decide, rfl, by decide +kernel⟩

end QuickInfo.Project
