import Mathlib.Data.List.Flatten
import QuickInfo.Proofs.Header.Missing
import QuickInfo.Proofs.Listing.Entities

/-!
# Filtered listings

A listing for a wanted name has the texts of the entities of that name, in the order of the full
listing. Entities of other names do not count, even if they have no text.
-/
namespace QuickInfo

namespace Project.Arena

variable {p : Project} (hp : p.Arena)

include hp

/-- A type is listed after the type that encloses it. -/
theorem sublist_entities_type {o i : TypeId} (h : p.Encloses o i) :
    [.type o, .type i].Sublist (Listing.entities p) := by
  have hhas : ∀ {j}, j.index < p.size → [.type j].Sublist (p.entitiesOf j) := fun hj =>
    List.singleton_sublist.2 (mem_entitiesOf_iff.2 ⟨definition?_isSome_iff.2 hj, rfl⟩)
  obtain ⟨hlt, hi⟩ := hp.lt_of_encloses h
  have hpair : [.type o, .type i].Sublist ([o, i].flatMap p.entitiesOf) := by
    rw [List.flatMap_cons, List.flatMap_singleton]
    exact (hhas (Nat.lt_trans hlt hi)).append (hhas hi)
  rw [hp.entities_eq]
  exact hpair.trans ((hp.sublist_walk h).flatMap p.entitiesOf)

/-- A member is listed after its type. -/
theorem sublist_entities_member {i : MemberId} (h : p.Has (.member i)) :
    [.type i.declaringType, .member i].Sublist (Listing.entities p) := by
  obtain ⟨d, -, hd, -⟩ := exists_of_has_member h
  have hpair : [.type i.declaringType, .member i].Sublist (p.entitiesOf i.declaringType) := by
    have hmem : .member i ∈ p.entitiesOf i.declaringType := mem_entitiesOf_iff.2 ⟨h, rfl⟩
    rw [entitiesOf_eq hd] at hmem ⊢
    exact (List.singleton_sublist.2 (List.mem_of_ne_of_mem (by simp) hmem)).cons_cons _
  rw [hp.entities_eq]
  exact hpair.trans (List.sublist_flatten_of_mem
    (List.mem_map_of_mem (hp.mem_walk (index_lt_of_definition? hd))))

theorem isSelected_iff {w : String} {e : Listing.Entry} (he : e ∈ Listing.entries p) :
    Listing.isSelected (some w) e ↔ p.Named w e.entity := by
  obtain ⟨hstored, hdotted, -⟩ := hp.entry_of_mem he
  simp only [Named, hstored, hdotted, Listing.isSelected, Bool.or_eq_true, decide_eq_true_eq,
    Option.some.injEq, @eq_comm _ w]

/-- The selected entries are those of the entities of the wanted name. -/
theorem map_filter_isSelected (w : String) :
    ((Listing.entries p).filter (Listing.isSelected (some w))).map (fun e => e.entity) =
      (Listing.entities p).filter fun x => p.Named w x := by
  rw [Listing.entities, List.filter_map]
  refine congrArg _ (List.filter_congr fun e he => ?_)
  rw [Bool.eq_iff_iff, hp.isSelected_iff he, Function.comp_apply, decide_eq_true_iff]

theorem forall_isSelected_iff {w : String} {motive : Entity → Prop} :
    (∀ e ∈ (Listing.entries p).filter (Listing.isSelected (some w)), motive e.entity) ↔
      ∀ x ∈ Listing.entities p, p.Named w x → motive x := by
  have hfilter := hp.map_filter_isSelected w
  constructor
  · intro h x hx hw
    have hmem : x ∈ (Listing.entities p).filter fun x => p.Named w x :=
      List.mem_filter.2 ⟨hx, decide_eq_true hw⟩
    rw [← hfilter] at hmem
    obtain ⟨e, he, rfl⟩ := List.mem_map.1 hmem
    exact h e he
  · intro h e he
    have hmem := List.mem_map_of_mem (f := fun e => e.entity) he
    rw [hfilter] at hmem
    obtain ⟨hx, hw⟩ := List.mem_filter.1 hmem
    exact h _ hx (of_decide_eq_true hw)

/-- With the texts of the entities of a name there is the listing for that name. -/
theorem listing_eq_ok {f : Facets} {w : String} {texts : Entity → String}
    (h : ∀ x ∈ Listing.entities p, p.Named w x → entityText f p x = .ok (texts x)) :
    listing f p (some w) = .ok (String.join
      (((Listing.entities p).filter fun x => p.Named w x).map fun x => texts x ++ "\n")) := by
  rw [Listing.listing_of_texts (hp.forall_isSelected_iff.2 h), ← hp.map_filter_isSelected w,
    List.map_map]
  simp only [Listing.indentation, String.empty_append, Function.comp_def]

end Project.Arena

variable {p : Project}

/-- A delegate with a method. -/
def handlerDocument : TypeDocument where
  kind := .delegateType
  name := "Handler"
  members := [{ kind := .method, name := "Run" }]

/-- The delegate is added last, to a type that is not the last one. -/
def lateProject : Project :=
  (((Project.outerProject ["T"]).perform (Project.addType Project.extraDocument none)).2.perform
    (Project.addType handlerDocument (some ⟨1⟩))).2

end QuickInfo
