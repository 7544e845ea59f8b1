import QuickInfo.Proofs.Project.Acceptance

/-!
# The first type that is refused

The check of a snapshot is stated here on the documents alone: the types of all documents, each
before the types nested in it, with the keys that their places give them. A snapshot is accepted if
these types have valid names and different keys. Otherwise the error is that of the first type that
goes against this, and a type has its name, its key and its members looked at in that order.
-/
namespace QuickInfo

/-- A type of a snapshot with the key that its place there gives it. -/
structure KeyedType where
  key : TypeKey
  document : TypeDocument

namespace TypeDocument

mutual

/-- The types of a document, each before the types nested in it. `outers` are the names of the
enclosing types from the outermost one on; the namespace is that of the outermost type. -/
def keyed (ns : String) (outers : List String) : TypeDocument → List KeyedType
  | ⟨header, ownNs, members, nested⟩ =>
    ⟨⟨QualifiedName.text ⟨ns, outers ++ [header.name]⟩, header.arity⟩,
        ⟨header, ownNs, members, nested⟩⟩ ::
      keyedAll ns (outers ++ [header.name]) nested

def keyedAll (ns : String) (outers : List String) : List TypeDocument → List KeyedType
  | [] => []
  | d :: ds => d.keyed ns outers ++ keyedAll ns outers ds

end

end TypeDocument

/-- The types of a snapshot. -/
def AssemblyDocument.keyed (d : AssemblyDocument) : List KeyedType :=
  d.types.flatMap fun t => t.keyed t.ns []

/-- The types can be declared together: their names and the names of their members are valid, and no
two of them have the same key. -/
structure Acceptable (ts : List KeyedType) : Prop where
  typeName : ∀ t ∈ ts, t.document.name ≠ "" ∧
    '.' ∉ t.document.name.toList ∧ '+' ∉ t.document.name.toList
  memberName : ∀ t ∈ ts, ∀ m ∈ t.document.members, m.name ≠ ""
  distinct : (ts.map (·.key)).Nodup

/-- What a type that comes after the types `before` is refused for. -/
inductive RefusedAfter (before : List KeyedType) (t : KeyedType) : AddError → Prop where
  | emptyName : t.document.name = "" →
    RefusedAfter before t (.invalidName t.document.name .emptyType)
  | qualifiedName : '.' ∈ t.document.name.toList ∨ '+' ∈ t.document.name.toList →
    RefusedAfter before t (.invalidName t.document.name .qualifiedType)
  | duplicate : t.document.name ≠ "" → '.' ∉ t.document.name.toList →
    '+' ∉ t.document.name.toList → t.key ∈ before.map (·.key) →
    RefusedAfter before t (.duplicateType t.key.name)
  | memberName : t.document.name ≠ "" → '.' ∉ t.document.name.toList →
    '+' ∉ t.document.name.toList → t.key ∉ before.map (·.key) →
    (∃ m ∈ t.document.members, m.name = "") →
    RefusedAfter before t (.invalidName "" .emptyMember)

/-! ### Arrivals have the keys of their places -/

def Arrival.keyed (a : Arrival) : KeyedType := ⟨a.key, a.document⟩

/-- The scope is that inside the types with the given names. -/
def Scope.IsInside (s : Scope) (outers : List String) : Prop :=
  ∀ name, s.nameOf name = QualifiedName.text ⟨s.ns, outers ++ [name]⟩

theorem Scope.isInside_nil (ns : String) : Scope.IsInside ⟨ns, none⟩ [] := by
  intro name
  rw [List.nil_append, QualifiedName.text, String.intercalate_singleton]
  rfl

theorem Scope.IsInside.inside {s : Scope} {outers : List String} (h : s.IsInside outers)
    (name : String) : (s.inside name).IsInside (outers ++ [name]) := by
  intro inner
  have hne : outers ++ [name] ≠ [] := List.append_ne_nil_of_right_ne_nil outers (by simp)
  calc (s.inside name).nameOf inner
      = s.nameOf name ++ "+" ++ inner := rfl
    _ = QualifiedName.text ⟨s.ns, outers ++ [name]⟩ ++ "+" ++ inner := by rw [h name]
    _ = QualifiedName.text ⟨s.ns, outers ++ [name] ++ [inner]⟩ :=
        (QualifiedName.text_append s.ns hne inner).symm

namespace TypeDocument

mutual

theorem keyed_arrivals {s : Scope} {outers : List String} (hs : s.IsInside outers)
    (outer : Option TypeId) (n : Nat) :
    ∀ d : TypeDocument, (d.arrivals s outer n).map Arrival.keyed = d.keyed s.ns outers
  | ⟨header, ownNs, members, nested⟩ => by
    have hnested := keyed_arrivalsAll (hs.inside header.name) (some ⟨n⟩) (n + 1) nested
    rw [arrivals, keyed, List.map_cons, hnested, Arrival.keyed, Scope.keyOf, hs header.name]
    rfl

theorem keyed_arrivalsAll {s : Scope} {outers : List String} (hs : s.IsInside outers)
    (outer : Option TypeId) (n : Nat) :
    ∀ ds : List TypeDocument,
      (arrivalsAll s outer n ds).map Arrival.keyed = keyedAll s.ns outers ds
  | [] => rfl
  | d :: ds => by
    rw [arrivalsAll, keyedAll, List.map_append, keyed_arrivals hs, keyed_arrivalsAll hs]

end

end TypeDocument

namespace Project

theorem keyed_arrivalsEach (d : AssemblyDocument) :
    (arrivalsEach d.types).map Arrival.keyed = d.keyed := by
  rw [arrivalsEach, AssemblyDocument.keyed, List.map_flatMap]
  congr 1
  funext t
  exact TypeDocument.keyed_arrivals (Scope.isInside_nil t.ns) none 0 t

/-! ### The check stops at the first type that is refused -/

variable {p : Project} {c : AddError}

/-- The check fails at a type that is refused after all types before it have passed. -/
theorem checkAll_eq_error_iff {pending : List TypeKey} {as : List Arrival} :
    p.checkAll pending as = .error c ↔
      ∃ before a after keys, as = before ++ a :: after ∧ p.checkAll pending before = .ok keys ∧
        p.refusal? keys a.key a.document = some c := by
  constructor
  · intro h
    induction as generalizing pending with
    | nil => cases h
    | cons a as ih =>
      rw [checkAll] at h
      cases hr : p.refusal? pending a.key a.document with
      | some e =>
        rw [hr] at h
        obtain rfl : e = c := Except.error.inj h
        exact ⟨[], a, as, pending, rfl, rfl, hr⟩
      | none =>
        rw [hr] at h
        obtain ⟨before, b, after, keys, rfl, hbefore, hb⟩ := ih h
        refine ⟨a :: before, b, after, keys, rfl, ?_, hb⟩
        rw [checkAll, hr]
        exact hbefore
  · rintro ⟨before, a, after, keys, rfl, hbefore, ha⟩
    rw [checkAll_append, hbefore]
    show p.checkAll keys (a :: after) = .error c
    rw [checkAll, ha]

/-- A type is refused as soon as one thing is wrong with it. -/
theorem exists_refusedAfter {before : List KeyedType} {t : KeyedType}
    (h : ¬(typeNameFault? t.document.name = none ∧ t.key ∉ before.map (·.key) ∧
      ∀ m ∈ t.document.members, m.name ≠ "")) : ∃ c, RefusedAfter before t c := by
  by_cases hempty : t.document.name = ""
  · exact ⟨_, .emptyName hempty⟩
  by_cases hqualified : '.' ∈ t.document.name.toList ∨ '+' ∈ t.document.name.toList
  · exact ⟨_, .qualifiedName hqualified⟩
  obtain ⟨hdot, hplus⟩ := not_or.1 hqualified
  by_cases hkey : t.key ∈ before.map (·.key)
  · exact ⟨_, .duplicate hempty hdot hplus hkey⟩
  · refine ⟨_, .memberName hempty hdot hplus hkey ?_⟩
    by_contra hmembers
    refine h ⟨typeNameFault?_eq_none_iff.2 ⟨hempty, hdot, hplus⟩, hkey, fun m hm hname => ?_⟩
    exact hmembers ⟨m, hm, hname⟩

section

variable {pending : List TypeKey} {before : List KeyedType} {t : KeyedType}

theorem refusal?_of_refusedAfter (hpending : ∀ key, key ∈ pending ↔ key ∈ before.map (·.key))
    (h : RefusedAfter before t c) :
    (∅ : Project).refusal? pending t.key t.document = some c := by
  rw [refusal?]
  cases h with
  | emptyName hempty => rw [typeNameFault?, if_pos hempty]
  | qualifiedName hqualified =>
    have hempty : t.document.name ≠ "" := by
      intro he
      simp [he] at hqualified
    rw [typeNameFault?, if_neg hempty, if_pos hqualified]
  | duplicate hempty hdot hplus hkey =>
    rw [typeNameFault?_eq_none_iff.2 ⟨hempty, hdot, hplus⟩]
    exact if_pos (.inr ((hpending t.key).2 hkey))
  | memberName hempty hdot hplus hkey hmember =>
    have hnew : ¬(((∅ : Project).find? t.key).isSome ∨ t.key ∈ pending) := by
      rw [find?_empty, hpending]
      simpa using hkey
    have hany : (t.document.members.any fun m => m.name = "") = true := by simpa using hmember
    rw [typeNameFault?_eq_none_iff.2 ⟨hempty, hdot, hplus⟩]
    exact (if_neg hnew).trans (if_pos hany)

/-- With no types in the project, the pending keys alone decide what is a duplicate. -/
theorem refusal?_eq_some_iff (hpending : ∀ key, key ∈ pending ↔ key ∈ before.map (·.key)) :
    (∅ : Project).refusal? pending t.key t.document = some c ↔ RefusedAfter before t c := by
  constructor
  · intro h
    have hwrong : ¬(typeNameFault? t.document.name = none ∧ t.key ∉ before.map (·.key) ∧
        ∀ m ∈ t.document.members, m.name ≠ "") := by
      rintro ⟨hname, hkey, hmembers⟩
      have hnew : t.key ∉ pending := mt (hpending t.key).1 hkey
      rw [refusal?_eq_none_iff.2 ⟨hname, ⟨find?_empty t.key, hnew⟩, hmembers⟩] at h
      cases h
    -- the refusal is a function, so this error is the one that it gives
    obtain ⟨c', hc'⟩ := exists_refusedAfter hwrong
    rw [refusal?_of_refusedAfter hpending hc'] at h
    exact Option.some.inj h ▸ hc'
  · exact refusal?_of_refusedAfter hpending

end

theorem acceptable_keyed_iff {as : List Arrival} :
    Acceptable (as.map Arrival.keyed) ↔
      (∀ a ∈ as, a.document.HasValidNames) ∧ (as.map (·.key)).Nodup := by
  have hkeys : (as.map Arrival.keyed).map (·.key) = as.map (·.key) := List.map_map
  constructor
  · rintro ⟨htype, hmember, hdistinct⟩
    rw [hkeys] at hdistinct
    refine ⟨fun a ha => ?_, hdistinct⟩
    have hkeyed : a.keyed ∈ as.map Arrival.keyed := List.mem_map_of_mem ha
    exact ⟨typeNameFault?_eq_none_iff.2 (htype _ hkeyed), hmember _ hkeyed⟩
  · rintro ⟨hnames, hdistinct⟩
    refine ⟨?_, ?_, hkeys ▸ hdistinct⟩
    · rintro t ht
      obtain ⟨a, ha, rfl⟩ := List.mem_map.1 ht
      exact typeNameFault?_eq_none_iff.1 (hnames a ha).1
    · rintro t ht
      obtain ⟨a, ha, rfl⟩ := List.mem_map.1 ht
      exact (hnames a ha).2

/-- The check of all types that come to the empty project, stated on their keys and documents. -/
theorem checkAll_empty_eq_error_iff {as : List Arrival} :
    (∅ : Project).checkAll [] as = .error c ↔
      ∃ before t after, as.map Arrival.keyed = before ++ t :: after ∧ Acceptable before ∧
        RefusedAfter before t c := by
  rw [checkAll_eq_error_iff]
  constructor
  · rintro ⟨before, a, after, keys, rfl, hbefore, ha⟩
    obtain ⟨hnames, ⟨-, hdistinct⟩, rfl⟩ := checkAll_eq_ok_iff.1 hbefore
    refine ⟨before.map Arrival.keyed, a.keyed, after.map Arrival.keyed, by simp,
      acceptable_keyed_iff.2 ⟨hnames, hdistinct⟩, (refusal?_eq_some_iff ?_).1 ha⟩
    intro key
    simp [Arrival.keyed]
  · rintro ⟨_, _, _, has, hbefore, ha⟩
    obtain ⟨before, rest, rfl, rfl, hrest⟩ := List.map_eq_append_iff.1 has
    obtain ⟨a, after, rfl, rfl, rfl⟩ := List.map_eq_cons_iff.1 hrest
    obtain ⟨hnames, hdistinct⟩ := acceptable_keyed_iff.1 hbefore
    have hkeys : (∅ : Project).Distinct [] before := ⟨by simp, hdistinct⟩
    refine ⟨before, a, after, _, rfl, checkAll_eq_ok_iff.2 ⟨hnames, hkeys, rfl⟩,
      (refusal?_eq_some_iff ?_).2 ha⟩
    intro key
    simp [Arrival.keyed]

/-- A snapshot is accepted exactly if its types can be declared together. Otherwise the first of
them, each taken before the types nested in it, that cannot be declared with those before it gives
the error. -/
theorem accepted_or_first_refused (d : AssemblyDocument) :
    ((∃ p, ofDocument d = .ok p) ↔ Acceptable d.keyed) ∧
      ∀ c, ofDocument d = .error c ↔
        ∃ before t after, d.keyed = before ++ t :: after ∧ Acceptable before ∧
          RefusedAfter before t c := by
  rw [← keyed_arrivalsEach]
  constructor
  · rw [exists_ofDocument_iff, acceptable_keyed_iff]
  · intro c
    rw [ofDocument_eq_error_iff, checkAll_empty_eq_error_iff]

/-- The key of a type does not tell the arity of an enclosing type, so the structures in two classes
of one name clash, though the classes do not. -/
example : ofDocument { types := [outerDocument [], outerDocument ["T"]] } =
    .error (.duplicateType "Acme.Outer+Inner") := by
  rfl

end Project

end QuickInfo
