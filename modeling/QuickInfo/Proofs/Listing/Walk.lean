import Mathlib.Algebra.BigOperators.Group.List.Basic
import Mathlib.Algebra.GroupWithZero.Nat
import Mathlib.Data.List.Nodup
import QuickInfo.Proofs.Project.Duplicates

/-!
# The walk through the nesting

From the types that no other type encloses the walk goes to each type and from there to the types
nested in it. In an arena it ends, and it comes to every type exactly once and after the type that
encloses it.
-/
namespace QuickInfo.Project

/-- The identifiers of the types, in their order. -/
def ids (p : Project) : List TypeId := (List.range p.size).map TypeId.mk

/-- The types nested directly in a type. -/
def nestedIn (p : Project) (i : TypeId) : List TypeId :=
  match p.definition? i with
  | some d => d.nestedTypes
  | none => []

/-- A type and, after it, the walks from the types nested in it, down to `fuel` levels. -/
def below (p : Project) : Nat → TypeId → List TypeId
  | 0, _ => []
  | fuel + 1, i => i :: (p.nestedIn i).flatMap (p.below fuel)

def topIds (p : Project) : List TypeId := p.topLevel.map fun d => d.id

/-- The walk through all types. No type lies deeper than there are types. -/
def walk (p : Project) : List TypeId := p.topIds.flatMap (p.below p.size)

variable {p : Project} {i j o : TypeId}

/-- A type is enclosed by one type at most. -/
theorem Encloses.unique (h : p.Encloses i j) (h' : p.Encloses o j) : i = o := by
  obtain ⟨d, hd, hi⟩ := h
  obtain ⟨d', hd', ho⟩ := h'
  obtain rfl := Option.some.inj (hd.symm.trans hd')
  exact Option.some.inj (hi.symm.trans ho)

theorem sum_map_eq_count (l : List TypeId) (j : TypeId) :
    (l.map fun i => if i = j then 1 else 0).sum = l.count j := by
  induction l with
  | nil => rfl
  | cons i l ih => simp [List.count_cons, ih, Nat.add_comm]

theorem mem_ids_iff : j ∈ p.ids ↔ j.index < p.size := by
  obtain ⟨n⟩ := j
  simp [ids]

theorem nodup_ids (p : Project) : p.ids.Nodup :=
  List.nodup_range.map fun _ _ h => TypeId.mk.inj h

namespace Arena

variable (hp : p.Arena)

include hp

theorem mem_nestedIn_iff : j ∈ p.nestedIn i ↔ p.Encloses i j := by
  rw [nestedIn, Encloses]
  cases hi : p.definition? i with
  | some e => exact hp.mem_nested hi
  | none =>
    simp only [List.not_mem_nil, false_iff, not_exists, not_and]
    intro d hd ho
    obtain ⟨e, he⟩ := exists_definition? (hp.outer_lt_size hd ho)
    cases hi.symm.trans he

theorem nodup_nestedIn (i : TypeId) : (p.nestedIn i).Nodup := by
  rw [nestedIn]
  cases he : p.definition? i with
  | none => exact List.nodup_nil
  | some e =>
    exact (hp.nested_sorted he).imp fun hlt heq => Nat.ne_of_lt hlt (congrArg TypeId.index heq)

/-- Every definition stands at its identifier. -/
theorem definition?_id {d : TypeDefinition} (hd : d ∈ p.types.toList) :
    p.definition? d.id = some d := by
  obtain ⟨i, hi⟩ := mem_types_iff.1 hd
  rw [hp.id_eq hi, hi]

theorem mem_topIds_iff :
    i ∈ p.topIds ↔ ∃ d, p.definition? i = some d ∧ d.declaringType = none := by
  simp only [topIds, topLevel, List.mem_map, List.mem_filter, Option.isNone_iff_eq_none]
  constructor
  · rintro ⟨d, ⟨hmem, ho⟩, rfl⟩
    exact ⟨d, hp.definition?_id hmem, ho⟩
  · rintro ⟨d, hd, ho⟩
    exact ⟨d, ⟨mem_types_iff.2 ⟨i, hd⟩, ho⟩, hp.id_eq hd⟩

theorem lt_size_of_mem_topIds (hi : i ∈ p.topIds) : i.index < p.size := by
  obtain ⟨d, hd, -⟩ := hp.mem_topIds_iff.1 hi
  exact index_lt_of_definition? hd

theorem not_mem_topIds (ho : p.Encloses o j) : j ∉ p.topIds := by
  intro hmem
  obtain ⟨d, hd, hnone⟩ := hp.mem_topIds_iff.1 hmem
  obtain ⟨d', hd', hsome⟩ := ho
  obtain rfl := Option.some.inj (hd.symm.trans hd')
  cases hnone.symm.trans hsome

theorem lt_of_encloses (h : p.Encloses i j) : i.index < j.index ∧ j.index < p.size := by
  obtain ⟨d, hd, ho⟩ := h
  exact ⟨hp.outer_lt hd ho, index_lt_of_definition? hd⟩

/-- What holds of a type whenever it holds of the types nested in it holds of every type. -/
theorem nested_induction {motive : TypeId → Prop}
    (step : ∀ i, i.index < p.size → (∀ j ∈ p.nestedIn i, motive j) → motive i)
    (hi : i.index < p.size) : motive i := by
  -- on the number of types behind the type, since nested types stand there
  obtain ⟨n, hn⟩ : ∃ n, p.size - i.index = n := ⟨_, rfl⟩
  induction n using Nat.strongRecOn generalizing i with
  | _ n ih =>
    refine step i hi fun j hj => ?_
    obtain ⟨hlt, hj⟩ := hp.lt_of_encloses (hp.mem_nestedIn_iff.1 hj)
    exact ih (p.size - j.index) (by omega) hj rfl

theorem below_congr {fuel fuel' : Nat} (h : p.size ≤ fuel + i.index)
    (h' : p.size ≤ fuel' + i.index) (hi : i.index < p.size) :
    p.below fuel i = p.below fuel' i := by
  induction fuel generalizing i fuel' with
  | zero => omega
  | succ fuel ih =>
    cases fuel' with
    | zero => omega
    | succ fuel' =>
      rw [below, below]
      refine congrArg _ (List.flatMap_congr fun j hj => ?_)
      obtain ⟨hlt, hj⟩ := hp.lt_of_encloses (hp.mem_nestedIn_iff.1 hj)
      exact ih (by omega) (by omega) hj

/-- The walk from a type ends: its bound on the levels is not reached. -/
theorem below_eq (hi : i.index < p.size) :
    p.below p.size i = i :: (p.nestedIn i).flatMap (p.below p.size) := by
  have hsize : p.size ≤ p.size + 1 + i.index := by omega
  rw [hp.below_congr (Nat.le_add_right _ _) hsize hi, below]

theorem lt_size_of_mem_below (hi : i.index < p.size) :
    ∀ j ∈ p.below p.size i, j.index < p.size := by
  refine hp.nested_induction (motive := fun i => ∀ j ∈ p.below p.size i, j.index < p.size) ?_ hi
  intro i hi ih
  rw [hp.below_eq hi]
  refine List.forall_mem_cons.2 ⟨hi, fun j hj => ?_⟩
  obtain ⟨k, hk, hj⟩ := List.mem_flatMap.1 hj
  exact ih k hk j hj

theorem count_below (hi : i.index < p.size) (j : TypeId) :
    (p.below p.size i).count j =
      (if i = j then 1 else 0) +
        ((p.nestedIn i).map fun k => (p.below p.size k).count j).sum := by
  rw [hp.below_eq hi, List.count_cons, List.count_flatMap, Nat.add_comm]
  simp only [beq_iff_eq]
  rfl

theorem count_nestedIn (ho : p.Encloses o j) (i : TypeId) :
    (p.nestedIn i).count j = if i = o then 1 else 0 := by
  by_cases h : i = o
  · subst h
    rw [if_pos rfl]
    exact List.count_eq_one_of_mem (hp.nodup_nestedIn i) (hp.mem_nestedIn_iff.2 ho)
  · rw [if_neg h]
    exact List.count_eq_zero_of_not_mem fun hmem => h ((hp.mem_nestedIn_iff.1 hmem).unique ho)

/-- The walk from a type comes to a nested type as often as to the type that encloses it, and once
more if it starts there. -/
theorem count_below_of_encloses (ho : p.Encloses o j) (hi : i.index < p.size) :
    (p.below p.size i).count j = (if i = j then 1 else 0) + (p.below p.size i).count o := by
  refine hp.nested_induction (motive := fun i => (p.below p.size i).count j =
    (if i = j then 1 else 0) + (p.below p.size i).count o) ?_ hi
  intro i hi ih
  have hsum : ((p.nestedIn i).map fun k => (p.below p.size k).count j).sum =
      (if i = o then 1 else 0) + ((p.nestedIn i).map fun k => (p.below p.size k).count o).sum := by
    rw [List.map_congr_left ih, List.sum_map_add, sum_map_eq_count, hp.count_nestedIn ho]
  rw [hp.count_below hi j, hp.count_below hi o, hsum]

/-- The walk from a type comes to a type that is not nested only if it starts there. -/
theorem count_below_of_topLevel (hj : ∀ o, ¬p.Encloses o j) (hi : i.index < p.size) :
    (p.below p.size i).count j = if i = j then 1 else 0 := by
  refine hp.nested_induction (motive := fun i => (p.below p.size i).count j =
    if i = j then 1 else 0) ?_ hi
  intro i hi ih
  have hnot : j ∉ p.nestedIn i := fun h => hj i (hp.mem_nestedIn_iff.1 h)
  rw [hp.count_below hi j, List.map_congr_left ih, sum_map_eq_count,
    List.count_eq_zero_of_not_mem hnot, Nat.add_zero]

theorem map_id_types : p.types.toList.map (fun d => d.id) = p.ids := by
  apply List.ext_getElem?
  intro k
  rw [ids, List.getElem?_map, List.getElem?_map, Array.getElem?_toList]
  cases hd : p.types[k]? with
  | none =>
    have hk : p.size ≤ k := Array.getElem?_eq_none_iff.1 hd
    rw [List.getElem?_eq_none (by simpa using hk)]
    rfl
  | some d =>
    have hlt : k < p.size := (Array.getElem?_eq_some_iff.1 hd).1
    have hid : d.id = ⟨k⟩ := hp.id_eq (i := ⟨k⟩) hd
    rw [List.getElem?_range hlt, Option.map_some, Option.map_some, hid]

theorem nodup_topIds : p.topIds.Nodup := by
  refine List.Sublist.nodup ?_ p.nodup_ids
  rw [← hp.map_id_types]
  exact List.filter_sublist.map _

/-- The walk comes to every type exactly once. -/
theorem count_walk (hj : j.index < p.size) : p.walk.count j = 1 := by
  -- on the identifier, since the enclosing type has a smaller one
  obtain ⟨n, hn⟩ : ∃ n, j.index = n := ⟨_, rfl⟩
  induction n using Nat.strongRecOn generalizing j with
  | _ n ih =>
    obtain ⟨d, hd⟩ := exists_definition? hj
    rw [walk, List.count_flatMap]
    cases ho : d.declaringType with
    | none =>
      have hnot : ∀ o, ¬p.Encloses o j :=
        fun o henc => hp.not_mem_topIds henc (hp.mem_topIds_iff.2 ⟨d, hd, ho⟩)
      have hcount : ∀ i ∈ p.topIds, (List.count j ∘ p.below p.size) i = if i = j then 1 else 0 :=
        fun i hi => hp.count_below_of_topLevel hnot (hp.lt_size_of_mem_topIds hi)
      rw [List.map_congr_left hcount, sum_map_eq_count]
      exact List.count_eq_one_of_mem hp.nodup_topIds (hp.mem_topIds_iff.2 ⟨d, hd, ho⟩)
    | some o =>
      have henc : p.Encloses o j := ⟨d, hd, ho⟩
      have hlt := (hp.lt_of_encloses henc).1
      have hcount : ∀ i ∈ p.topIds, (List.count j ∘ p.below p.size) i =
          (if i = j then 1 else 0) + (List.count o ∘ p.below p.size) i :=
        fun i hi => hp.count_below_of_encloses henc (hp.lt_size_of_mem_topIds hi)
      rw [List.map_congr_left hcount, List.sum_map_add, sum_map_eq_count,
        List.count_eq_zero_of_not_mem (hp.not_mem_topIds henc), Nat.zero_add, ← List.count_flatMap]
      exact ih o.index (by omega) (by omega) rfl

theorem lt_size_of_mem_walk : ∀ i ∈ p.walk, i.index < p.size := by
  intro i hi
  obtain ⟨t, ht, hi⟩ := List.mem_flatMap.1 hi
  exact hp.lt_size_of_mem_below (hp.lt_size_of_mem_topIds ht) i hi

theorem mem_walk (hi : i.index < p.size) : i ∈ p.walk :=
  List.count_pos_iff.1 (by rw [hp.count_walk hi]; exact Nat.one_pos)

theorem walk_perm : p.walk.Perm p.ids := by
  have hnodup : p.walk.Nodup :=
    List.nodup_iff_count_eq_one.2 fun i hi => hp.count_walk (hp.lt_size_of_mem_walk i hi)
  rw [List.perm_ext_iff_of_nodup hnodup p.nodup_ids]
  intro i
  rw [mem_ids_iff]
  exact ⟨hp.lt_size_of_mem_walk i, hp.mem_walk⟩

/-- Within the walk from a type, a nested type comes after the type that encloses it. -/
theorem sublist_below (ho : p.Encloses o j) (hi : i.index < p.size)
    (hj : j ∈ p.below p.size i) : i = j ∨ [o, j].Sublist (p.below p.size i) := by
  refine hp.nested_induction (motive := fun i => j ∈ p.below p.size i →
    i = j ∨ [o, j].Sublist (p.below p.size i)) ?_ hi hj
  intro i hi ih hj
  rw [hp.below_eq hi] at hj ⊢
  rcases List.mem_cons.1 hj with rfl | hj
  · exact .inl rfl
  · obtain ⟨k, hk, hjk⟩ := List.mem_flatMap.1 hj
    right
    rcases ih k hk hjk with rfl | hsub
    · obtain rfl := (hp.mem_nestedIn_iff.1 hk).unique ho
      exact (List.singleton_sublist.2 hj).cons_cons i
    · have hall : (p.below p.size k).Sublist ((p.nestedIn i).flatMap (p.below p.size)) :=
        List.sublist_flatten_of_mem (List.mem_map_of_mem hk)
      exact (hsub.trans hall).cons i

/-- Every nested type comes after the type that encloses it. -/
theorem sublist_walk (ho : p.Encloses o j) : [o, j].Sublist p.walk := by
  obtain ⟨t, ht, hj⟩ := List.mem_flatMap.1 (hp.mem_walk (hp.lt_of_encloses ho).2)
  have hall : (p.below p.size t).Sublist p.walk :=
    List.sublist_flatten_of_mem (List.mem_map_of_mem ht)
  rcases hp.sublist_below ho (hp.lt_size_of_mem_topIds ht) hj with rfl | hsub
  · exact absurd ht (hp.not_mem_topIds ho)
  · exact hsub.trans hall

end Arena

end QuickInfo.Project
