import QuickInfo.Proofs.Project.Acceptance
import QuickInfo.Proofs.Project.Twins

/-!
# The order of the types in a snapshot

In another order the types of a snapshot have other identifiers, but each has a twin. So the same
names are found and references resolve to the same types.
-/
namespace QuickInfo

open TypeDocument

/-- What a type that is not nested is found by. -/
def TypeDocument.key (d : TypeDocument) : TypeKey := ⟨QualifiedName.qualify d.ns d.name, d.arity⟩

namespace Project

variable {p q : Project}

theorem content_whole (a : Arrival) (ns : String) :
    (a.whole ns).content = (a.document.toTypeHeader, ns, a.document.members) :=
  congrArg (fun members => (a.document.toTypeHeader, ns, members)) (members_definition a ns)

mutual

/-- The types of a document that is in two projects are twins, by recursion on the document. -/
theorem twins_arrivals {ns : String} (s s' : Scope) {outer outer' : Option TypeId} (n m : Nat)
    (ho : p.Twins q outer outer') :
    ∀ d : TypeDocument, (∀ a ∈ d.arrivals s outer n, p.HoldsWhole ns a) →
      (∀ a ∈ d.arrivals s' outer' m, q.HoldsWhole ns a) →
      List.Forall₂ (fun a b : Arrival => p.Twins q (some a.id) (some b.id))
        (d.arrivals s outer n) (d.arrivals s' outer' m)
  | ⟨header, ownNs, members, nested⟩, hp, hq => by
    rw [arrivals] at hp hq
    rw [arrivals, arrivals]
    obtain ⟨hhead, hrest⟩ := List.forall_mem_cons.1 hp
    obtain ⟨hhead', hrest'⟩ := List.forall_mem_cons.1 hq
    have hcontent := (content_whole ⟨s'.keyOf header, ⟨m⟩, outer', ⟨header, ownNs, members, nested⟩⟩
      ns).trans (content_whole ⟨s.keyOf header, ⟨n⟩, outer, ⟨header, ownNs, members, nested⟩⟩ ns).symm
    have htwins := twins_some hhead hhead' hcontent ho
    exact .cons htwins (twins_arrivalsAll _ _ _ _ htwins nested hrest hrest')

theorem twins_arrivalsAll {ns : String} (s s' : Scope) {outer outer' : Option TypeId} (n m : Nat)
    (ho : p.Twins q outer outer') :
    ∀ ds : List TypeDocument, (∀ a ∈ arrivalsAll s outer n ds, p.HoldsWhole ns a) →
      (∀ a ∈ arrivalsAll s' outer' m ds, q.HoldsWhole ns a) →
      List.Forall₂ (fun a b : Arrival => p.Twins q (some a.id) (some b.id))
        (arrivalsAll s outer n ds) (arrivalsAll s' outer' m ds)
  | [], _, _ => .nil
  | d :: ds, hp, hq => by
    rw [arrivalsAll] at hp hq
    rw [arrivalsAll, arrivalsAll]
    obtain ⟨hd, hds⟩ := List.forall_mem_append.1 hp
    obtain ⟨hd', hds'⟩ := List.forall_mem_append.1 hq
    exact List.rel_append (twins_arrivals s s' n m ho d hd hd')
      (twins_arrivalsAll s s' _ _ ho ds hds hds')

end

/-- The walks through a document that is in two projects come to twins. -/
theorem twins_below (hp : p.Arena) (hq : q.Arena) {d : TypeDocument} {i j : TypeId}
    (hi : p.Contains d i) (hj : q.Contains d j) :
    List.Forall₂ (fun i j => p.Twins q (some i) (some j)) (p.below p.size i)
      (q.below q.size j) := by
  have hbelow : p.below p.size i = (arrivalsAt d i).map (·.id) :=
    hp.below_eq_arrivals ⟨d.ns, none⟩ none i.index d hi
  have hbelow' : q.below q.size j = (arrivalsAt d j).map (·.id) :=
    hq.below_eq_arrivals ⟨d.ns, none⟩ none j.index d hj
  rw [hbelow, hbelow', List.forall₂_map_left_iff, List.forall₂_map_right_iff]
  exact twins_arrivals _ _ _ _ (twins_none p q) d hi hj

theorem forall₂_exists_left {α β : Type} {R : α → β → Prop} {as : List α} {bs : List β}
    (h : List.Forall₂ R as bs) : ∀ a ∈ as, ∃ b ∈ bs, R a b := by
  induction h with
  | nil => simp
  | @cons a b as bs hab _ ih =>
    refine List.forall_mem_cons.2 ⟨⟨b, List.mem_cons_self, hab⟩, fun a' ha' => ?_⟩
    obtain ⟨b', hb', hR⟩ := ih a' ha'
    exact ⟨b', List.mem_cons_of_mem b hb', hR⟩

/-- The outermost type of a document that is in the project. -/
theorem Contains.exists_definition {d : TypeDocument} {i : TypeId} (h : p.Contains d i) :
    ∃ t, p.definition? i = some t ∧ t.declaringType = none ∧ t.toTypeHeader = d.toTypeHeader ∧
      t.ns = d.ns := by
  obtain ⟨header, ownNs, members, nested⟩ := d
  rw [Contains, arrivalsAt, arrivals] at h
  exact ⟨_, (List.forall_mem_cons.1 h).1, rfl, rfl, rfl⟩

theorem WellFormed.find?_key (hp : p.WellFormed) {d : TypeDocument} {i : TypeId}
    (h : p.Contains d i) : p.find? d.key = some i := by
  obtain ⟨t, ht, ho, hheader, hns⟩ := h.exists_definition
  refine hp.find?_eq_some_iff_key.2 ⟨t, ht, ?_⟩
  rw [Project.key, p.reflectionName_topLevel ho, hheader, hns, TypeDocument.key]

theorem LaidOut.exists_contains {ds : List TypeDocument} (h : p.LaidOut ds) {d : TypeDocument}
    (hd : d ∈ ds) : ∃ i, p.Contains d i := by
  obtain ⟨i, -, hi⟩ := forall₂_exists_left h.contains d hd
  exact ⟨i, hi⟩

/-- Each type of a snapshot has a twin in every project of the same documents. -/
theorem LaidOut.exists_twin {ds es : List TypeDocument} (hp : p.LaidOut ds) (hq : q.LaidOut es)
    (hsub : ds ⊆ es) {i : TypeId} (hi : i.index < p.size) :
    ∃ j, p.Twins q (some i) (some j) := by
  obtain ⟨t, ht, hi⟩ := List.mem_flatMap.1 (hp.arena.mem_walk hi)
  obtain ⟨d, hd, hcontains⟩ := forall₂_exists_left hp.contains.flip t ht
  obtain ⟨t', hcontains'⟩ := hq.exists_contains (hsub hd)
  obtain ⟨j, -, hj⟩ :=
    forall₂_exists_left (twins_below hp.arena hq.arena hcontains hcontains') i hi
  exact ⟨j, hj⟩

/-- What is found in the one project is found in the other as a twin. -/
def FindsTwins (p q : Project) : Prop :=
  ∀ key i, p.find? key = some i → ∃ j, q.find? key = some j ∧ p.Twins q (some i) (some j)

theorem WellFormed.findsTwins (hp : p.WellFormed) (hq : q.WellFormed) {ds es : List TypeDocument}
    (hds : p.LaidOut ds) (hes : q.LaidOut es) (hsub : ds ⊆ es) : p.FindsTwins q := by
  intro key i hf
  obtain ⟨j, htwins⟩ := hds.exists_twin hes hsub (hp.index_lt_of_find? hf)
  obtain ⟨d, hd, rfl⟩ := hp.find?_eq_some_iff_key.1 hf
  obtain ⟨-, e, -, -, -, he, -⟩ := htwins.cases
  have hkey := htwins.key_eq hp.toArena hq.toArena hd he
  exact ⟨j, hq.find?_eq_some_iff_key.2 ⟨e, he, hkey⟩, htwins⟩

section Alike

variable (h : p.FindsTwins q) (h' : q.FindsTwins p)

include h h'

theorem isSome_find?_eq (key : TypeKey) : (q.find? key).isSome = (p.find? key).isSome := by
  cases hp : p.find? key with
  | some i =>
    obtain ⟨j, hq, -⟩ := h key i hp
    rw [hq]
    rfl
  | none =>
    cases hq : q.find? key with
    | none => rfl
    | some j =>
      obtain ⟨i, hi, -⟩ := h' key j hq
      cases hp.symm.trans hi

/-- Projects that find twins resolve every reference to the same type. -/
theorem resolve_eq_of_findsTwins (hp : p.Arena) (hq : q.Arena) (r : TypeReference) :
    q.resolve r = p.resolve r := by
  refine resolve_congr fun key _ ts _ => resolveNamed_eq_of_lookup ?_
  have hsome := isSome_find?_eq h h' ⟨key.name, ts.length⟩
  cases hf : p.find? ⟨key.name, ts.length⟩ with
  | none =>
    rw [hf, Option.isSome_none, Option.isSome_eq_false_iff, Option.isNone_iff_eq_none] at hsome
    rw [hsome]
    rfl
  | some i =>
    obtain ⟨j, hj, htwins⟩ := h _ i hf
    rw [hj]
    exact htwins.definitionType?_eq hp hq

end Alike

end Project

end QuickInfo
