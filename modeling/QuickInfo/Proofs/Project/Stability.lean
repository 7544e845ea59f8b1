import QuickInfo.Proofs.Header.View

/-!
# What stays when a project grows

Types that are added, wherever and however many, change neither what is found already nor the texts
of what is there. Of a member this holds if the types that it refers to are there or predefined: a
predefined type that the project defines later is written like before.
-/
namespace QuickInfo

namespace Project

/-- What a project becomes by adding types one after another, accepted or not. -/
inductive Grows (p : Project) : Project → Prop where
  | refl : Grows p p
  | add {q : Project} (d : TypeDocument) (outer : Option TypeId) :
    Grows p q → Grows p (q.perform (addType d outer)).2

variable {p q : Project}

theorem extends_addType (p : Project) (d : TypeDocument) (outer : Option TypeId) :
    p.Extends (p.perform (addType d outer)).2 := by
  obtain ⟨e, he⟩ | ⟨s, keys, hs, -, hadd⟩ := perform_addType_cases p d outer
  · rw [he]
    exact .refl p
  · rw [hadd]
    exact (pushes_insert (scope_eq_ok hs).1 s d).extension

namespace Grows

theorem reachable (h : p.Grows q) (hp : p.Reachable) : q.Reachable := by
  induction h with
  | refl => exact hp
  | add d outer _ ih => exact .add d outer ih

theorem extension (h : p.Grows q) : p.Extends q := by
  induction h with
  | refl => exact .refl p
  | @add q d outer _ ih => exact ih.trans (extends_addType q d outer)

end Grows

theorem keepsHeaders_bare (f : Facets) : KeepsHeaders f bare id where
  toKeepsNames := keepsNames_bare
  kind_eq _ := rfl
  typeModifiers_eq _ := rfl
  typeParameters_eq _ := rfl
  members_eq d := (List.map_id d.members).symm
  memberHeader_eq _ _ _ _ := rfl

namespace Extends

variable (h : p.Extends q) (hp : p.WellFormed) (hq : q.WellFormed)

include h hp hq

theorem find?_eq {key : TypeKey} {i : TypeId} (hi : p.find? key = some i) :
    q.find? key = some i :=
  (hp.find?_within hq keepsNames_bare h.within (hp.index_lt_of_find? hi)).2 hi

theorem definitionType?_eq {i : TypeId} (hi : i.index < p.size) :
    q.definitionType? i = p.definitionType? i :=
  h.within.definitionType?_eq keepsNames_bare hp.toArena hq.toArena hi

/-- A reference resolves as before if all that it names was found or is predefined. -/
theorem resolve_eq {r : TypeReference}
    (hr : ∀ key ∈ r.keys, (p.find? key).isSome ∨ key ∈ Predefined.keys) :
    q.resolve r = p.resolve r := by
  refine resolve_congr fun key hkey ts hts => ?_
  rcases hr key hkey with hfound | hpredefined
  · obtain ⟨i, hi⟩ := Option.isSome_iff_exists.1 hfound
    refine resolveNamed_eq_of_lookup ?_
    rw [hts, hi, h.find?_eq hp hq hi, Option.bind_some, Option.bind_some,
      h.definitionType?_eq hp hq (hp.index_lt_of_find? hi)]
  · -- the name may be found in the larger project only
    have harity : key.arity = 0 := by
      obtain ⟨entry, -, rfl⟩ := List.mem_map.1 hpredefined
      rfl
    obtain rfl := List.eq_nil_of_length_eq_zero (hts.trans harity)
    exact hp.resolveNamed_of_mem_keys hq hpredefined

end Extends

/-- What was found stays, with the type that it declares and its text; the text of a member stays if
all types that it refers to were found or are predefined. -/
theorem Grows.answers_eq (hp : p.Reachable) (h : p.Grows q) :
    (∀ {key i}, p.find? key = some i → q.find? key = some i) ∧
      (∀ {i t}, p.definitionType? i = some t → q.definitionType? i = some t) ∧
      (∀ f {i d}, p.definition? i = some d →
        entityText f q (.type i) = entityText f p (.type i)) ∧
      ∀ f {i m}, p.member? i = some m →
        (∀ r ∈ m.references, ∀ key ∈ r.keys, (p.find? key).isSome ∨ key ∈ Predefined.keys) →
        entityText f q (.member i) = entityText f p (.member i) := by
  have hpw := hp.wellFormed
  have hqw := (h.reachable hp).wellFormed
  have hext := h.extension
  refine ⟨hext.find?_eq hpw hqw, ?_, ?_, ?_⟩
  · intro i t ht
    obtain ⟨d, hd, -⟩ := Option.bind_eq_some_iff.1 ht
    rw [hext.definitionType?_eq hpw hqw (index_lt_of_definition? hd), ht]
  · intro f i d hd
    exact hext.within.entityText_type_eq (keepsHeaders_bare f) hpw.toArena hqw.toArena
      (index_lt_of_definition? hd)
  · intro f i m hm hr
    exact hext.within.entityText_member_eq (keepsHeaders_bare f) hpw.toArena hqw.toArena hm
      fun r hmem => hext.resolve_eq hpw hqw (hr r hmem)

/-- The type that methods without a result refer to. -/
def voidDocument : TypeDocument where
  kind := .structType
  name := "Void"
  ns := "System"

/-- A method without a result is written as before when its return type becomes a type of the
project, and a type that gets nested types is found as before. -/
theorem Grows.answers_eq_outer :
    ∃ p q : Project, p.Reachable ∧ p.Grows q ∧
      p.find? ⟨"System.Void", 0⟩ = none ∧ q.find? ⟨"System.Void", 0⟩ = some ⟨2⟩ ∧
      p.find? ⟨"Acme.Outer", 1⟩ = some ⟨0⟩ ∧ q.find? ⟨"Acme.Outer", 1⟩ = some ⟨0⟩ ∧
      (∀ f, entityText f q (.type ⟨0⟩) = entityText f p (.type ⟨0⟩)) ∧
      ∀ f, entityText f q (.member ⟨⟨0⟩, 0⟩) = entityText f p (.member ⟨⟨0⟩, 0⟩) := by
  let p := outerProject ["T"]
  have hp : p.Reachable := reachable_outerProject ["T"]
  have hg : p.Grows _ := (Grows.refl.add voidDocument none).add extraDocument (some ⟨0⟩)
  obtain ⟨hfind, -, htype, hmember⟩ := Grows.answers_eq hp hg
  have hlt : 0 < p.types.size := by decide
  have hd : p.definition? ⟨0⟩ = some p.types[0] := rfl
  have hm : p.member? ⟨⟨0⟩, 0⟩ = some { kind := .method, name := "Run", id := ⟨⟨0⟩, 0⟩ } := rfl
  have houter : p.find? ⟨"Acme.Outer", 1⟩ = some ⟨0⟩ := by decide +kernel
  refine ⟨p, _, hp, hg, by decide +kernel, by decide +kernel, houter, hfind houter,
    fun f => htype f hd, fun f => hmember f hm ?_⟩
  intro r hr key hkey
  obtain rfl : r = .void := List.mem_singleton.1 hr
  obtain rfl : key = ⟨"System.Void", 0⟩ := List.mem_singleton.1 hkey
  exact .inr (by decide)

end Project

end QuickInfo
