import QuickInfo.Proofs.Listing.Walk
import QuickInfo.Proofs.Project.Addition

/-!
# The layout of a snapshot

The types of a snapshot stand in its project in the order of the documents, each directly before the
types nested in it, and each lists exactly the types that its document has. So the walk through the
nesting comes to the types in the order of their identifiers.
-/
namespace QuickInfo

namespace TypeDocument

/-- The identifiers of the outermost types if the documents arrive one after another from `n` on. -/
def roots (n : Nat) : List TypeDocument → List TypeId
  | [] => []
  | d :: ds => ⟨n⟩ :: roots (n + d.preorder.length) ds

mutual

/-- The identifiers of the types of a document follow each other. -/
theorem id_arrivals (s : Scope) (outer : Option TypeId) (n : Nat) :
    ∀ d : TypeDocument,
      (d.arrivals s outer n).map (·.id) = (List.range' n d.preorder.length).map TypeId.mk
  | ⟨header, ownNs, members, nested⟩ => by
    rw [arrivals, preorder, List.map_cons, id_arrivalsAll, List.length_cons, List.range'_succ,
      List.map_cons]

theorem id_arrivalsAll (s : Scope) (outer : Option TypeId) (n : Nat) :
    ∀ ds : List TypeDocument,
      (arrivalsAll s outer n ds).map (·.id) = (List.range' n (preorderAll ds).length).map TypeId.mk
  | [] => rfl
  | d :: ds => by
    rw [arrivalsAll, preorderAll, List.map_append, id_arrivals, id_arrivalsAll, ← List.map_append,
      List.range'_append_1, List.length_append]

end

theorem index_of_mem_arrivals {s : Scope} {outer : Option TypeId} {n : Nat} {d : TypeDocument}
    {a : Arrival} (ha : a ∈ d.arrivals s outer n) :
    n ≤ a.id.index ∧ a.id.index < n + d.preorder.length := by
  have hmem := List.mem_map_of_mem (f := fun a => a.id) ha
  rw [id_arrivals] at hmem
  obtain ⟨k, hk, hid⟩ := List.mem_map.1 hmem
  rw [← hid]
  exact List.mem_range'_1.1 hk

/-- Of the types of documents only the outermost ones are declared in an earlier type. -/
theorem filter_arrivalsAll (s : Scope) (outer : Option TypeId) {n : Nat} {i : TypeId}
    (hi : i.index < n) (ds : List TypeDocument) :
    ((arrivalsAll s outer n ds).filter (·.outer = some i)).map (·.id) =
      if outer = some i then roots n ds else [] := by
  induction ds generalizing n with
  | nil => simp [arrivalsAll, roots]
  | cons d ds ih =>
    rw [arrivalsAll, List.filter_append, List.map_append, filter_arrivals s outer hi,
      ih (Nat.lt_add_right _ hi), roots]
    split <;> rfl

/-- Of the types of a document only the outermost one may be declared in no type. -/
theorem filter_arrivals_none (s : Scope) (n : Nat) (d : TypeDocument) :
    ((d.arrivals s none n).filter (·.outer = none)).map (·.id) = [⟨n⟩] := by
  obtain ⟨header, ownNs, members, nested⟩ := d
  have hnested : (arrivalsAll (s.inside header.name) (some ⟨n⟩) (n + 1) nested).filter
      (·.outer = none) = [] := by
    rw [List.filter_eq_nil_iff]
    intro a ha
    obtain ⟨o, ho, -⟩ := outer_arrivalsAll (Nat.zero_le _) (Nat.zero_le _) nested a ha
    simp [ho]
  rw [arrivals, List.filter_cons, hnested]
  rfl

end TypeDocument

open TypeDocument

/-- The definition of the type with the types nested in it. -/
def Arrival.whole (ns : String) (a : Arrival) : TypeDefinition :=
  { a.definition ns with nestedTypes := roots (a.id.index + 1) a.document.nestedTypes }

namespace Project

/-- The type is there with exactly the nested types that its document has. -/
def HoldsWhole (p : Project) (ns : String) (a : Arrival) : Prop :=
  p.definition? a.id = some (a.whole ns)

variable {p q : Project} {ns : String} {outer : Option TypeId}

/-- Of an old definition only the list of nested types changes, and only if the documents are
declared in the type. -/
theorem definition?_insertAll_old
    (ho : ∀ o, outer = some o → ∃ e, p.definition? o = some e ∧ ns = e.ns) {i : TypeId}
    {e : TypeDefinition} (he : p.definition? i = some e) (ds : List TypeDocument) :
    (p.insertAll ns outer ds).definition? i = some { e with
      nestedTypes := e.nestedTypes ++ if outer = some i then roots p.size ds else [] } := by
  let s : Scope := ⟨ns, none⟩
  have hfilter : (((arrivalsAll s outer p.size ds).map (Arrival.definition ns)).filter
      (·.declaringType = some i)).map (·.id) = if outer = some i then roots p.size ds else [] := by
    rw [List.filter_map, List.map_map]
    exact filter_arrivalsAll s outer (index_lt_of_definition? he) ds
  rw [(pushes_insertAll ho s ds).definition?_old he, hfilter]

mutual

/-- Every type of a document is there whole, by recursion on the document. -/
theorem holdsWhole_insert {p : Project} {ns : String} {outer : Option TypeId}
    (ho : ∀ o, outer = some o → ∃ e, p.definition? o = some e ∧ ns = e.ns) (s : Scope) :
    ∀ d : TypeDocument, ∀ a ∈ d.arrivals s outer p.size, (p.insert ns outer d).HoldsWhole ns a
  | ⟨header, ownNs, members, nested⟩ => by
    have hfits := fits_definition ho ⟨header, ownNs, members, nested⟩
    have hsize := p.size_push
      (TypeDocument.definition ⟨header, ownNs, members, nested⟩ ⟨p.size⟩ ns outer)
    rw [arrivals, insert]
    refine List.forall_mem_cons.2 ⟨?_, ?_⟩
    · have hhead := definition?_insertAll_old hfits.declares (definition?_push_new hfits) nested
      rw [if_pos rfl, hsize] at hhead
      exact hhead
    · rw [← hsize]
      exact holdsWhole_insertAll hfits.declares (s.inside header.name) nested

theorem holdsWhole_insertAll {p : Project} {ns : String} {outer : Option TypeId}
    (ho : ∀ o, outer = some o → ∃ e, p.definition? o = some e ∧ ns = e.ns) (s : Scope) :
    ∀ ds : List TypeDocument,
      ∀ a ∈ arrivalsAll s outer p.size ds, (p.insertAll ns outer ds).HoldsWhole ns a
  | [] => by simp [arrivalsAll]
  | d :: ds => by
    have hd := pushes_insert ho s d
    have hsize : (p.insert ns outer d).size = p.size + d.preorder.length := by
      rw [hd.size_eq, List.length_map, length_arrivals]
    have ho' := hd.extension.declares ho
    rw [arrivalsAll, insertAll, ← hsize]
    refine List.forall_mem_append.2 ⟨fun a ha => ?_, holdsWhole_insertAll ho' s ds⟩
    -- the types of `d` come behind `outer`, so none of them encloses a type of `ds`
    have hne : outer ≠ some a.id := by
      rintro rfl
      obtain ⟨e, he, -⟩ := ho a.id rfl
      exact absurd (index_lt_of_definition? he) (Nat.not_lt.2 (index_of_mem_arrivals ha).1)
    rw [HoldsWhole, definition?_insertAll_old ho' (holdsWhole_insert ho s d a ha), if_neg hne,
      List.append_nil]

end

mutual

/-- The walk from a type that is there whole comes to its types in their order. -/
theorem Arena.below_eq_arrivals (hq : q.Arena) (s : Scope) (outer : Option TypeId) (n : Nat) :
    ∀ d : TypeDocument, (∀ a ∈ d.arrivals s outer n, q.HoldsWhole ns a) →
      q.below q.size ⟨n⟩ = (d.arrivals s outer n).map (·.id)
  | ⟨header, ownNs, members, nested⟩, hholds => by
    rw [arrivals] at hholds ⊢
    obtain ⟨hhead, hrest⟩ := List.forall_mem_cons.1 hholds
    have hnested : q.nestedIn ⟨n⟩ = roots (n + 1) nested := by
      rw [nestedIn, hhead]
      rfl
    rw [hq.below_eq (index_lt_of_definition? hhead), hnested, List.map_cons,
      hq.below_eq_arrivalsAll _ _ _ nested hrest]

theorem Arena.below_eq_arrivalsAll (hq : q.Arena) (s : Scope) (outer : Option TypeId) (n : Nat) :
    ∀ ds : List TypeDocument, (∀ a ∈ arrivalsAll s outer n ds, q.HoldsWhole ns a) →
      (roots n ds).flatMap (q.below q.size) = (arrivalsAll s outer n ds).map (·.id)
  | [], _ => rfl
  | d :: ds, hholds => by
    rw [arrivalsAll] at hholds ⊢
    obtain ⟨hd, hds⟩ := List.forall_mem_append.1 hholds
    rw [roots, List.flatMap_cons, List.map_append, hq.below_eq_arrivals s outer n d hd,
      hq.below_eq_arrivalsAll s outer _ ds hds]

end

/-- The types of a document that is not nested, with identifiers from `i` on. -/
def arrivalsAt (d : TypeDocument) (i : TypeId) : List Arrival :=
  d.arrivals ⟨d.ns, none⟩ none i.index

/-- The document is in the project with all its types, from the given identifier on. -/
def Contains (p : Project) (d : TypeDocument) (i : TypeId) : Prop :=
  ∀ a ∈ arrivalsAt d i, p.HoldsWhole d.ns a

/-- Adds top-level types in their order, unchecked. -/
def insertEach (p : Project) : List TypeDocument → Project
  | [] => p
  | d :: ds => (p.insert d.ns none d).insertEach ds

theorem perform_addTypes_eq_ok {ds : List TypeDocument}
    (h : p.perform (addTypes ds) = (.ok (), q)) : q = p.insertEach ds := by
  induction ds generalizing p with
  | nil => exact (Prod.mk.inj h).2.symm
  | cons d ds ih =>
    rw [addTypes, perform_bind] at h
    obtain ⟨c, hc⟩ | ⟨s, keys, hs, -, hadd⟩ := perform_addType_cases p d none
    · rw [hc] at h
      cases h
    · obtain rfl := Except.ok.inj hs
      rw [hadd] at h
      exact ih h

theorem pushes_insert_top (p : Project) (d : TypeDocument) :
    Pushes p ((arrivalsAt d ⟨p.size⟩).map (Arrival.definition d.ns)) (p.insert d.ns none d) :=
  pushes_insert (by simp) ⟨d.ns, none⟩ d

theorem size_insert_top (p : Project) (d : TypeDocument) :
    (p.insert d.ns none d).size = p.size + d.preorder.length := by
  rw [(pushes_insert_top p d).size_eq, List.length_map, arrivalsAt, length_arrivals]

/-- A new top-level type changes no other definition. -/
theorem definition?_insert_top {i : TypeId} {e : TypeDefinition} (he : p.definition? i = some e)
    (d : TypeDocument) : (p.insert d.ns none d).definition? i = some e := by
  have hs : p.scope d none = .ok ⟨d.ns, none⟩ := rfl
  rw [definition?_insert_old hs he, if_neg (by simp)]

theorem definition?_insertEach {i : TypeId} {e : TypeDefinition} (he : p.definition? i = some e)
    (ds : List TypeDocument) : (p.insertEach ds).definition? i = some e := by
  induction ds generalizing p with
  | nil => exact he
  | cons d ds ih => exact ih (definition?_insert_top he d)

theorem size_insertEach (p : Project) (ds : List TypeDocument) :
    (p.insertEach ds).size = p.size + (preorderAll ds).length := by
  induction ds generalizing p with
  | nil => rfl
  | cons d ds ih =>
    rw [Project.insertEach, ih, size_insert_top, preorderAll, List.length_append, Nat.add_assoc]

theorem contains_insert_top (p : Project) (d : TypeDocument) :
    (p.insert d.ns none d).Contains d ⟨p.size⟩ :=
  holdsWhole_insert (by simp) ⟨d.ns, none⟩ d

theorem contains_insertEach (p : Project) (ds : List TypeDocument) :
    List.Forall₂ (p.insertEach ds).Contains ds (roots p.size ds) := by
  induction ds generalizing p with
  | nil => exact .nil
  | cons d ds ih =>
    rw [roots, ← size_insert_top]
    exact .cons (fun a ha => definition?_insertEach (contains_insert_top p d a ha) ds) (ih _)

theorem Arena.topIds_eq_filter (hp : p.Arena) :
    p.topIds = p.ids.filter fun i => (p.definition? i).any fun d => d.declaringType.isNone := by
  have htop : ∀ d ∈ p.types.toList, d.declaringType.isNone =
      (p.definition? d.id).any fun d => d.declaringType.isNone := by
    intro d hd
    rw [hp.definition?_id hd, Option.any_some]
  rw [topIds, topLevel, List.filter_congr htop, ← hp.map_id_types, List.filter_map]
  rfl

theorem ids_eq_range' (p : Project) : p.ids = (List.range' 0 p.size).map TypeId.mk := by
  rw [ids, List.range_eq_range']

theorem ids_insert_top (p : Project) (d : TypeDocument) :
    (p.insert d.ns none d).ids = p.ids ++ (arrivalsAt d ⟨p.size⟩).map (·.id) := by
  rw [ids_eq_range', ids_eq_range', arrivalsAt, id_arrivals, size_insert_top, ← List.map_append,
    ← List.range'_append_1, Nat.zero_add]

/-- A new top-level type comes behind the others. -/
theorem Arena.topIds_insert_top (hp : p.Arena) (d : TypeDocument) :
    (p.insert d.ns none d).topIds = p.topIds ++ [⟨p.size⟩] := by
  have hq : (p.insert d.ns none d).Arena := (pushes_insert_top p d).arena hp
  have hold : ∀ i ∈ p.ids, ((p.insert d.ns none d).definition? i).any (·.declaringType.isNone) =
      (p.definition? i).any (·.declaringType.isNone) := by
    intro i hi
    obtain ⟨e, he⟩ := exists_definition? (mem_ids_iff.1 hi)
    rw [he, definition?_insert_top he]
  have hnew : ∀ a ∈ arrivalsAt d ⟨p.size⟩,
      ((p.insert d.ns none d).definition? a.id).any (·.declaringType.isNone) =
        decide (a.outer = none) := by
    intro a ha
    rw [contains_insert_top p d a ha, Option.any_some, Bool.eq_iff_iff, decide_eq_true_iff]
    exact Option.isNone_iff_eq_none
  rw [hq.topIds_eq_filter, hp.topIds_eq_filter, ids_insert_top, List.filter_append,
    List.filter_congr hold, List.filter_map, ← filter_arrivals_none ⟨d.ns, none⟩ p.size d]
  exact congrArg _ (congrArg _ (List.filter_congr hnew))

theorem Arena.topIds_insertEach (hp : p.Arena) (ds : List TypeDocument) :
    (p.insertEach ds).topIds = p.topIds ++ roots p.size ds := by
  induction ds generalizing p with
  | nil => exact (List.append_nil _).symm
  | cons d ds ih =>
    rw [Project.insertEach, ih ((pushes_insert_top p d).arena hp), hp.topIds_insert_top, roots,
      size_insert_top, List.append_assoc]
    rfl

/-- A snapshot is loaded by inserting its documents one after another. -/
theorem eq_insertEach_of_ofDocument {d : AssemblyDocument} (h : ofDocument d = .ok p) :
    p = (∅ : Project).insertEach d.types := by
  rw [ofDocument] at h
  rcases hp : (∅ : Project).perform (addTypes d.types) with ⟨c | u, q⟩
  · rw [hp] at h
    cases h
  · rw [hp] at h
    rw [← Except.ok.inj h]
    exact perform_addTypes_eq_ok hp

/-- Where the types of a snapshot stand. -/
structure LaidOut (p : Project) (ds : List TypeDocument) : Prop where
  arena : p.Arena
  size_eq : p.size = (preorderAll ds).length
  topIds_eq : p.topIds = roots 0 ds
  contains : List.Forall₂ p.Contains ds p.topIds

theorem laidOut_of_ofDocument {d : AssemblyDocument} (h : ofDocument d = .ok p) :
    p.LaidOut d.types := by
  have htop : p.topIds = roots 0 d.types := by
    rw [eq_insertEach_of_ofDocument h, arena_empty.topIds_insertEach]
    rfl
  refine ⟨(reachable_of_ofDocument h).wellFormed.toArena, ?_, htop, ?_⟩
  · rw [eq_insertEach_of_ofDocument h, size_insertEach]
    exact Nat.zero_add _
  · rw [htop, eq_insertEach_of_ofDocument h]
    exact contains_insertEach ∅ d.types

theorem Arena.flatMap_roots (hp : p.Arena) {n : Nat} {ds : List TypeDocument}
    (h : List.Forall₂ p.Contains ds (roots n ds)) :
    (roots n ds).flatMap (p.below p.size) =
      (List.range' n (preorderAll ds).length).map TypeId.mk := by
  induction ds generalizing n with
  | nil => rfl
  | cons d ds ih =>
    rw [roots] at h ⊢
    cases h with
    | cons hd hds =>
      rw [List.flatMap_cons, hp.below_eq_arrivals ⟨d.ns, none⟩ none n d hd, id_arrivals, ih hds,
        ← List.map_append, List.range'_append_1, preorderAll, List.length_append]

/-- The walk comes to the types of a snapshot in the order of their identifiers. -/
theorem LaidOut.walk_eq_ids {ds : List TypeDocument} (h : p.LaidOut ds) : p.walk = p.ids := by
  rw [walk, h.topIds_eq, h.arena.flatMap_roots (h.topIds_eq ▸ h.contains), ids_eq_range', h.size_eq]

end Project

end QuickInfo
