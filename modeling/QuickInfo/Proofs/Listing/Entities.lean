import QuickInfo.Listing
import QuickInfo.Proofs.Listing.Walk

/-!
# The entities of a listing

A listing follows the walk through the nesting and has at each type an entry for the type and one
for each of its members. What an entry says about its entity is what the project says, and there is
a listing if every selected entity has a declaration text.
-/
namespace QuickInfo

open Listing (Entry)

namespace Listing

/-- The entities in the order of a listing. -/
def entities (p : Project) : List Entity := (entries p).map fun e => e.entity

variable {f : Facets} {p : Project} {wanted : Option String} {es : List Entry}

/-- There are lines if the first entity has a text and there are lines for the others. -/
theorem lines_cons_eq_ok_iff {e : Entry} {ls : List String} :
    lines f p wanted (e :: es) = .ok ls ↔ ∃ t ls', entityText f p e.entity = .ok t ∧
      lines f p wanted es = .ok ls' ∧ ls = (indentation wanted e.depth ++ t ++ "\n") :: ls' := by
  rw [lines, line]
  cases entityText f p e.entity with
  | error c => simp [bind, Except.bind]
  | ok t => cases lines f p wanted es <;> simp [bind, Except.bind, pure, Except.pure, eq_comm]

theorem lines_of_texts {texts : Entity → String}
    (h : ∀ e ∈ es, entityText f p e.entity = .ok (texts e.entity)) :
    lines f p wanted es =
      .ok (es.map fun e => indentation wanted e.depth ++ texts e.entity ++ "\n") := by
  induction es with
  | nil => rfl
  | cons e es ih =>
    obtain ⟨he, hes⟩ := List.forall_mem_cons.1 h
    exact lines_cons_eq_ok_iff.2 ⟨_, _, he, ih hes, rfl⟩

theorem exists_text_of_lines {ls : List String} (h : lines f p wanted es = .ok ls) :
    ∀ e ∈ es, ∃ t, entityText f p e.entity = .ok t := by
  induction es generalizing ls with
  | nil => simp
  | cons e es ih =>
    obtain ⟨t, ls', ht, hls, -⟩ := lines_cons_eq_ok_iff.1 h
    exact List.forall_mem_cons.2 ⟨⟨t, ht⟩, ih hls⟩

/-- The text of an entity; there is nothing to show for one that has none. -/
def textOf (f : Facets) (p : Project) (x : Entity) : String :=
  match entityText f p x with
  | .ok t => t
  | .error _ => ""

theorem entityText_eq_textOf {x : Entity} (h : ∃ t, entityText f p x = .ok t) :
    entityText f p x = .ok (textOf f p x) := by
  obtain ⟨t, ht⟩ := h
  rw [textOf, ht]

/-- Without a wanted name everything is selected. -/
theorem filter_isSelected_none (es : List Entry) : es.filter (isSelected none) = es :=
  List.filter_eq_self.2 fun _ _ => rfl

/-- The listing with the texts of the selected entities. -/
theorem listing_of_texts {texts : Entity → String}
    (h : ∀ e ∈ (entries p).filter (isSelected wanted),
      entityText f p e.entity = .ok (texts e.entity)) :
    listing f p wanted = .ok (String.join (((entries p).filter (isSelected wanted)).map fun e =>
      indentation wanted e.depth ++ texts e.entity ++ "\n")) := by
  rw [listing, lines_of_texts h]
  rfl

theorem exists_text_of_listing {text : String} (h : listing f p wanted = .ok text) :
    ∀ e ∈ (entries p).filter (isSelected wanted), ∃ t, entityText f p e.entity = .ok t := by
  rw [listing] at h
  cases hls : lines f p wanted ((entries p).filter (isSelected wanted)) with
  | error c =>
    rw [hls] at h
    cases h
  | ok ls => exact exists_text_of_lines hls

end Listing

namespace Project

/-- The number of types that enclose a type. -/
def depth (p : Project) (i : TypeId) : Nat :=
  match p.definition? i with
  | none => 0
  | some d =>
    match p.enclosing d with
    | .ok outers => outers.length
    | .error _ => 0

/-- The entries of a type and its members. -/
def entriesAt (p : Project) (i : TypeId) : List Entry :=
  match p.definition? i with
  | none => []
  | some d => Listing.ownEntries p (p.depth i) d

/-- A type and its members. -/
def entitiesOf (p : Project) (i : TypeId) : List Entity :=
  match p.definition? i with
  | none => []
  | some d => .type i :: (List.range d.members.length).map fun k => .member ⟨i, k⟩

/-- Whether the entity is part of the project. -/
def Has (p : Project) : Entity → Prop
  | .type i => (p.definition? i).isSome
  | .member i => (p.member? i).isSome

/-- The name of an entity as it is stored. -/
def storedName? (p : Project) : Entity → Option String
  | .type i => (p.definition? i).map fun d => d.name
  | .member i => (p.member? i).map fun m => m.name

/-- The qualified name of an entity, with dots only. -/
def dottedName? (p : Project) : Entity → Option String
  | .type i => (p.definition? i).map fun d => Text.substitute '+' '.' (p.reflectionName d)
  | .member i => do
    let d ← p.definition? i.declaringType
    let m ← p.member? i
    return Text.substitute '+' '.' (p.reflectionName d) ++ "." ++ m.name

/-- How many types enclose an entity. -/
def nesting (p : Project) : Entity → Nat
  | .type i => p.depth i
  | .member i => p.depth i.declaringType + 1

/-- The entity has the name, qualified or not. -/
def Named (p : Project) (w : String) (x : Entity) : Prop :=
  p.storedName? x = some w ∨ p.dottedName? x = some w

instance (p : Project) (w : String) (x : Entity) : Decidable (p.Named w x) :=
  inferInstanceAs (Decidable (_ ∨ _))

variable {p : Project} {i o : TypeId} {d : TypeDefinition}

theorem entriesAt_eq (hd : p.definition? i = some d) :
    p.entriesAt i = Listing.ownEntries p (p.depth i) d := by
  rw [entriesAt, hd]

theorem entitiesOf_eq (hd : p.definition? i = some d) :
    p.entitiesOf i = .type i :: (List.range d.members.length).map fun k => .member ⟨i, k⟩ := by
  rw [entitiesOf, hd]

theorem nestedIn_eq (hd : p.definition? i = some d) : p.nestedIn i = d.nestedTypes := by
  rw [nestedIn, hd]

theorem member?_eq (hd : p.definition? i = some d) (k : Nat) :
    p.member? ⟨i, k⟩ = d.members[k]? := by
  simp [member?, hd]

/-- A member and its declaring type are there together. -/
theorem exists_of_has_member {i : MemberId} (h : p.Has (.member i)) :
    ∃ d m, p.definition? i.declaringType = some d ∧ p.member? i = some m := by
  obtain ⟨m, hm⟩ := Option.isSome_iff_exists.1 h
  obtain ⟨d, hd, -⟩ := Option.bind_eq_some_iff.1 hm
  exact ⟨d, m, hd, hm⟩

theorem mem_entitiesOf_iff {x : Entity} :
    x ∈ p.entitiesOf i ↔ p.Has x ∧
      match x with
      | .type j => j = i
      | .member j => j.declaringType = i := by
  cases hd : p.definition? i with
  | none =>
    simp only [entitiesOf, hd, List.not_mem_nil, false_iff, not_and]
    cases x with
    | type j =>
      rintro hj rfl
      simp [Has, hd] at hj
    | member j =>
      rintro hj rfl
      simp [Has, member?, hd] at hj
  | some d =>
    rw [entitiesOf_eq hd]
    cases x with
    | type j =>
      simp only [List.mem_cons, Entity.type.injEq, List.mem_map, reduceCtorEq, and_false,
        exists_false, or_false, iff_and_self]
      rintro rfl
      simp [Has, hd]
    | member j =>
      obtain ⟨j, k⟩ := j
      simp only [List.mem_cons, reduceCtorEq, List.mem_map, List.mem_range, Entity.member.injEq,
        MemberId.mk.injEq, false_or]
      constructor
      · rintro ⟨k, hk, rfl, rfl⟩
        simp [Has, member?_eq hd, hk]
      · rintro ⟨hk, rfl⟩
        exact ⟨k, by simpa [Has, member?_eq hd] using hk, rfl, rfl⟩

theorem nodup_entitiesOf (p : Project) (i : TypeId) : (p.entitiesOf i).Nodup := by
  cases hd : p.definition? i with
  | none =>
    rw [entitiesOf, hd]
    exact List.nodup_nil
  | some d =>
    rw [entitiesOf_eq hd, List.nodup_cons]
    refine ⟨by simp, List.nodup_range.map fun j k h => ?_⟩
    exact (MemberId.mk.inj (Entity.member.inj h)).2

/-- Different types have different entities. -/
theorem nodup_flatMap_entitiesOf {is : List TypeId} (h : is.Nodup) :
    (is.flatMap p.entitiesOf).Nodup := by
  rw [List.nodup_flatMap]
  refine ⟨fun i _ => p.nodup_entitiesOf i, h.imp fun {i j} hij x hi hj => hij ?_⟩
  rw [mem_entitiesOf_iff] at hi hj
  cases x with
  | type k => exact hi.2.symm.trans hj.2
  | member k => exact hi.2.symm.trans hj.2

namespace Arena

variable (hp : p.Arena)

include hp

theorem depth_eq_length {outers : List TypeDefinition} (hd : p.definition? i = some d)
    (houters : p.Chain d.declaringType outers) : p.depth i = outers.length := by
  simp only [depth, hd, hp.enclosing_eq houters]

theorem depth_topLevel (hd : p.definition? i = some d) (ho : d.declaringType = none) :
    p.depth i = 0 := by
  have houters : p.Chain d.declaringType [] := ho ▸ .nil
  exact hp.depth_eq_length hd houters

theorem depth_nested (h : p.Encloses o i) : p.depth i = p.depth o + 1 := by
  obtain ⟨d, hd, ho⟩ := h
  obtain ⟨e, he⟩ := exists_definition? (hp.outer_lt_size hd ho)
  obtain ⟨ds, hds⟩ := hp.exists_chain_outward he
  have houters : p.Chain d.declaringType (e :: ds) := ho ▸ .cons he hds
  rw [hp.depth_eq_length hd houters, hp.depth_eq_length he hds, List.length_cons]

/-- What is listed for the nested definitions is listed for the nested types of the walk. -/
theorem flatMap_nested (hd : p.definition? i = some d) {g : TypeDefinition → List Entry}
    {g' : TypeId → List Entry}
    (h : ∀ {j e}, p.Encloses i j → p.definition? j = some e → g e = g' j) :
    (d.nestedTypes.filterMap p.definition?).flatMap g = (p.nestedIn i).flatMap g' := by
  rw [nestedIn_eq hd, List.filterMap_eq_flatMap_toList, List.flatMap_assoc]
  refine List.flatMap_congr fun j hj => ?_
  obtain ⟨e, he, ho⟩ := (hp.mem_nested hd).1 hj
  rw [he, Option.toList_some, List.flatMap_singleton, h ⟨e, he, ho⟩ he]

/-- Below a type the listing follows the walk. -/
theorem entriesBelow_eq (hd : p.definition? i = some d) (fuel : Nat) :
    Listing.entriesBelow p fuel (p.depth i) d = (p.below fuel i).flatMap p.entriesAt := by
  induction fuel generalizing i d with
  | zero => rfl
  | succ fuel ih =>
    rw [Listing.entriesBelow, below, List.flatMap_cons, entriesAt_eq hd, List.flatMap_assoc]
    refine congrArg _ (hp.flatMap_nested hd fun hj he => ?_)
    rw [← hp.depth_nested hj, ih he]

/-- The recursion of the listing ends: its bound on the levels is not reached. -/
theorem entriesBelow_size (hd : p.definition? i = some d) :
    Listing.entriesBelow p p.size (p.depth i) d =
      Listing.ownEntries p (p.depth i) d ++ (d.nestedTypes.filterMap p.definition?).flatMap
        (Listing.entriesBelow p p.size (p.depth i + 1)) := by
  rw [hp.entriesBelow_eq hd, hp.below_eq (index_lt_of_definition? hd), List.flatMap_cons,
    entriesAt_eq hd, List.flatMap_assoc]
  refine congrArg _ (hp.flatMap_nested hd fun hj he => ?_).symm
  rw [← hp.depth_nested hj, hp.entriesBelow_eq he]

theorem entriesBelow_topLevel (hd : p.definition? i = some d) (ho : d.declaringType = none) :
    Listing.entriesBelow p p.size 0 d = (p.below p.size i).flatMap p.entriesAt := by
  rw [← hp.entriesBelow_eq hd, hp.depth_topLevel hd ho]

/-- The listing follows the walk. -/
theorem entries_eq : Listing.entries p = p.walk.flatMap p.entriesAt := by
  rw [Listing.entries, walk, topIds, List.flatMap_map, List.flatMap_assoc]
  refine List.flatMap_congr fun d hd => ?_
  obtain ⟨hmem, ho⟩ := List.mem_filter.1 hd
  exact hp.entriesBelow_topLevel (hp.definition?_id hmem) (Option.isNone_iff_eq_none.1 ho)

theorem map_entriesAt (i : TypeId) :
    (p.entriesAt i).map (fun e => e.entity) = p.entitiesOf i := by
  cases hd : p.definition? i with
  | none => rw [entriesAt, entitiesOf, hd, List.map_nil]
  | some d =>
    have hmembers : d.members.map (fun m => Entity.member m.id) =
        (List.range d.members.length).map fun k => .member ⟨i, k⟩ := by
      apply List.ext_getElem (by simp)
      intro k hk hk'
      rw [List.getElem_map, List.getElem_map, List.getElem_range]
      exact congrArg Entity.member (hp.memberId_eq hd (List.getElem?_eq_getElem _))
    rw [entriesAt_eq hd, entitiesOf_eq hd, Listing.ownEntries, List.map_cons, hp.id_eq hd,
      List.map_map, ← hmembers]
    rfl

/-- The entities of a listing are those of the types in the order of the walk. -/
theorem entities_eq :
    Listing.entities p = p.walk.flatMap p.entitiesOf := by
  rw [Listing.entities, hp.entries_eq, List.map_flatMap]
  exact List.flatMap_congr fun i _ => hp.map_entriesAt i

/-- What an entry says about its entity. -/
theorem entry_of_mem {e : Entry} (he : e ∈ Listing.entries p) :
    p.storedName? e.entity = some e.name ∧ p.dottedName? e.entity = some e.dotted ∧
      e.depth = p.nesting e.entity := by
  rw [hp.entries_eq] at he
  obtain ⟨i, -, he⟩ := List.mem_flatMap.1 he
  cases hd : p.definition? i with
  | none => simp [entriesAt, hd] at he
  | some d =>
    rw [entriesAt_eq hd] at he
    rcases List.mem_cons.1 he with rfl | he
    · simp [storedName?, dottedName?, nesting, hp.id_eq hd, hd, reflectionName,
        QualifiedName.dotted]
    · obtain ⟨m, hm, rfl⟩ := List.mem_map.1 he
      obtain ⟨k, hk⟩ := List.mem_iff_getElem?.1 hm
      have hmember : p.member? ⟨i, k⟩ = some m := (member?_eq hd k).trans hk
      simp [storedName?, dottedName?, nesting, hp.memberId_eq hd hk, hd, hmember, reflectionName,
        QualifiedName.dotted]

theorem map_line_entries (texts : Entity → String) :
    ((Listing.entries p).map fun e =>
        Listing.indentation none e.depth ++ texts e.entity ++ "\n") =
      (Listing.entities p).map fun x =>
        String.join (List.replicate (p.nesting x) "  ") ++ texts x ++ "\n" := by
  rw [Listing.entities, List.map_map]
  refine List.map_congr_left fun e he => ?_
  rw [(hp.entry_of_mem he).2.2]
  rfl

/-- The full listing has a line for each entity, indented by its nesting. -/
theorem listing_none_eq_ok_iff {f : Facets} {text : String} :
    listing f p none = .ok text ↔ ∃ texts : Entity → String,
      (∀ x ∈ Listing.entities p, entityText f p x = .ok (texts x)) ∧
      text = String.join ((Listing.entities p).map fun x =>
        String.join (List.replicate (p.nesting x) "  ") ++ texts x ++ "\n") := by
  have hlisting : ∀ {texts : Entity → String},
      (∀ x ∈ Listing.entities p, entityText f p x = .ok (texts x)) →
      listing f p none = .ok (String.join ((Listing.entities p).map fun x =>
        String.join (List.replicate (p.nesting x) "  ") ++ texts x ++ "\n")) := by
    intro texts htexts
    have hselected : ∀ e ∈ (Listing.entries p).filter (Listing.isSelected none),
        entityText f p e.entity = .ok (texts e.entity) := fun e he =>
      htexts _ (List.mem_map_of_mem (List.mem_filter.1 he).1)
    rw [Listing.listing_of_texts hselected, Listing.filter_isSelected_none, hp.map_line_entries]
  constructor
  · intro htext
    have htexts : ∀ x ∈ Listing.entities p, entityText f p x = .ok (Listing.textOf f p x) := by
      intro x hx
      obtain ⟨e, he, rfl⟩ := List.mem_map.1 hx
      have hselected := List.mem_filter.2 ⟨he, (rfl : Listing.isSelected none e = true)⟩
      exact Listing.entityText_eq_textOf (Listing.exists_text_of_listing htext e hselected)
    exact ⟨_, htexts, Except.ok.inj (htext.symm.trans (hlisting htexts))⟩
  · rintro ⟨texts, htexts, rfl⟩
    exact hlisting htexts

/-- A listing has every type and every member of the project, each once. -/
theorem nodup_entities : (Listing.entities p).Nodup := by
  rw [hp.entities_eq]
  exact nodup_flatMap_entitiesOf (hp.walk_perm.nodup_iff.2 p.nodup_ids)

theorem mem_entities_iff {x : Entity} :
    x ∈ Listing.entities p ↔ p.Has x := by
  have hwalk : ∀ {i d}, p.definition? i = some d → i ∈ p.walk := fun hd =>
    hp.mem_walk (index_lt_of_definition? hd)
  rw [hp.entities_eq, List.mem_flatMap]
  simp only [mem_entitiesOf_iff]
  constructor
  · rintro ⟨i, -, hx, -⟩
    exact hx
  · intro hx
    cases x with
    | type i =>
      obtain ⟨d, hd⟩ := Option.isSome_iff_exists.1 hx
      exact ⟨i, hwalk hd, hx, rfl⟩
    | member i =>
      obtain ⟨d, -, hd, -⟩ := exists_of_has_member hx
      exact ⟨i.declaringType, hwalk hd, hx, rfl⟩

end Arena

end Project

end QuickInfo
