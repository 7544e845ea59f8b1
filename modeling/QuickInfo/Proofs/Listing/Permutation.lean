import QuickInfo.Proofs.Listing.Snapshot
import QuickInfo.Proofs.Project.Permutation

/-!
# Snapshots in another order

The listing of a project is made of a block for each type that is not nested, with all that is
nested in it. A snapshot in another order has the same types with the same texts, and its listing
has the same blocks in that order.
-/
namespace QuickInfo

namespace Listing

/-- The part of a full listing for a type that is not nested, with all that is nested in it. -/
def block (f : Facets) (p : Project) (i : TypeId) : Except Error String :=
  match p.definition? i with
  | none => .ok ""
  | some d => String.join <$> lines f p none (entriesBelow p p.size 0 d)

variable {f : Facets} {p q : Project} {wanted : Option String} {es es' : List Entry}

theorem lines_append_of_ok {ls ls' : List String} (h : lines f p wanted es = .ok ls)
    (h' : lines f p wanted es' = .ok ls') : lines f p wanted (es ++ es') = .ok (ls ++ ls') := by
  induction es generalizing ls with
  | nil =>
    obtain rfl := Except.ok.inj h
    exact h'
  | cons e es ih =>
    obtain ⟨t, ls₀, ht, hls, rfl⟩ := lines_cons_eq_ok_iff.1 h
    exact lines_cons_eq_ok_iff.2 ⟨t, _, ht, ih hls, rfl⟩

/-- Entries with the same lines have them together. -/
theorem lines_congr
    (h : List.Forall₂ (fun e e' => line f q wanted e' = line f p wanted e) es es') :
    lines f q wanted es' = lines f p wanted es := by
  induction h with
  | nil => rfl
  | cons he _ ih => rw [lines, lines, he, ih]

theorem line_congr {e e' : Entry} (htext : entityText f q e'.entity = entityText f p e.entity)
    (hdotted : e'.dotted = e.dotted) (hdepth : e'.depth = e.depth) :
    line f q wanted e' = line f p wanted e := by
  rw [line, line, htext, hdotted, hdepth]

theorem block_eq_ok_iff {d : TypeDefinition} {i : TypeId} (hd : p.definition? i = some d)
    {text : String} : block f p i = .ok text ↔
      ∃ ls, lines f p none (entriesBelow p p.size 0 d) = .ok ls ∧ text = String.join ls := by
  rw [block, hd]
  simp only
  cases lines f p none (entriesBelow p p.size 0 d) with
  | error c => simp [Functor.map, Except.map]
  | ok ls => simp [Functor.map, Except.map, eq_comm]

/-- Blocks one after another have the lines of all their entries. -/
theorem lines_of_blocks {α : Type} {as : List α} {blocks : α → String} {ds : List TypeDefinition}
    (hthere : ∀ d ∈ ds, p.definition? d.id = some d)
    (h : List.Forall₂ (fun a d => block f p d.id = .ok (blocks a)) as ds) :
    ∃ ls, lines f p none (ds.flatMap (entriesBelow p p.size 0)) = .ok ls ∧
      String.join ls = String.join (as.map blocks) := by
  induction h with
  | nil => exact ⟨[], rfl, rfl⟩
  | cons hblock _ ih =>
    obtain ⟨hd, hds⟩ := List.forall_mem_cons.1 hthere
    obtain ⟨ls, hls, hjoin⟩ := (block_eq_ok_iff hd).1 hblock
    obtain ⟨ls', hls', hjoin'⟩ := ih hds
    refine ⟨ls ++ ls', ?_, ?_⟩
    · rw [List.flatMap_cons]
      exact lines_append_of_ok hls hls'
    · rw [List.map_cons, String.join_cons, String.join_append, hjoin, hjoin']

end Listing

namespace Project

variable {f : Facets} {p q : Project} {i j : TypeId}

namespace Arena

variable (hp : p.Arena)

include hp

/-- The listing is made of its blocks. -/
theorem listing_of_blocks {α : Type} {as : List α} {blocks : α → String}
    (h : List.Forall₂ (fun a t => Listing.block f p t = .ok (blocks a)) as p.topIds) :
    listing f p none = .ok (String.join (as.map blocks)) := by
  have hthere : ∀ d ∈ p.topLevel, p.definition? d.id = some d := fun d hd =>
    hp.definition?_id (List.mem_filter.1 hd).1
  rw [topIds, List.forall₂_map_right_iff] at h
  obtain ⟨ls, hls, hjoin⟩ := Listing.lines_of_blocks hthere h
  rw [listing, Listing.filter_isSelected_none, Listing.entries, hls, ← hjoin]
  rfl

theorem exists_block {text : String} (h : listing f p none = .ok text) :
    ∀ t ∈ p.topIds, ∃ b, Listing.block f p t = .ok b := by
  intro t ht
  obtain ⟨d, hd, rfl⟩ := List.mem_map.1 ht
  have hdef := hp.definition?_id (List.mem_filter.1 hd).1
  have htexts : ∀ e ∈ Listing.entriesBelow p p.size 0 d,
      entityText f p e.entity = .ok (Listing.textOf f p e.entity) := by
    intro e he
    have hentry : e ∈ Listing.entries p := List.mem_flatMap.2 ⟨d, hd, he⟩
    exact Listing.entityText_eq_textOf
      (Listing.exists_text_of_listing h e (List.mem_filter.2 ⟨hentry, rfl⟩))
  exact ⟨_, (Listing.block_eq_ok_iff hdef).2 ⟨_, Listing.lines_of_texts htexts, rfl⟩⟩

end Arena

namespace Twins

variable (h : p.Twins q (some i) (some j)) (hp : p.Arena) (hq : q.Arena)

include h hp hq

theorem depth_eq : q.depth j = p.depth i := by
  obtain ⟨d, e, ds, es, hd, he, hds, hes, -, heq⟩ := h.cases
  have hlength := congrArg List.length heq
  rw [List.length_map, List.length_map] at hlength
  rw [hp.depth_eq_length hd hds, hq.depth_eq_length he hes, hlength]

/-- Twins have the same lines if references resolve alike. -/
theorem line_entriesAt (hr : ∀ r, q.resolve r = p.resolve r) (f : Facets)
    (wanted : Option String) :
    List.Forall₂ (fun e e' => Listing.line f q wanted e' = Listing.line f p wanted e)
      (p.entriesAt i) (q.entriesAt j) := by
  obtain ⟨d, e, -, -, hd, he, -, -, hcontent, -⟩ := h.cases
  have hname : q.reflectionName e = p.reflectionName d :=
    congrArg TypeKey.name (h.key_eq hp hq hd he)
  have hdotted : (q.qualifiedName e).dotted = (p.qualifiedName d).dotted := by
    rw [QualifiedName.dotted, QualifiedName.dotted, ← reflectionName, ← reflectionName, hname]
  have hdepth := h.depth_eq hp hq
  have hmembers := members_eq_of_content hcontent
  rw [entriesAt_eq hd, entriesAt_eq he]
  simp only [Listing.ownEntries]
  refine .cons (Listing.line_congr ?_ hdotted hdepth) ?_
  · simp only [hp.id_eq hd, hq.id_eq he]
    exact h.entityText_type_eq hp hq f
  · rw [List.forall₂_map_left_iff, List.forall₂_map_right_iff, List.forall₂_iff_get]
    refine ⟨by simpa using (congrArg List.length hmembers).symm, fun k hk hk' => ?_⟩
    have hm : p.member? ⟨i, k⟩ = some d.members[k] :=
      (member?_eq hd k).trans (List.getElem?_eq_getElem hk)
    have hm' : q.member? ⟨j, k⟩ = some e.members[k] :=
      (member?_eq he k).trans (List.getElem?_eq_getElem hk')
    have hname : e.members[k].name = d.members[k].name := by
      have hk := h.memberDocument_eq k
      rw [hm, hm'] at hk
      exact congrArg (·.name) (Option.some.inj hk)
    have hid := hp.memberId_eq hd (List.getElem?_eq_getElem hk)
    have hid' := hq.memberId_eq he (List.getElem?_eq_getElem hk')
    refine Listing.line_congr ?_ ?_ ?_
    · simp only [List.get_eq_getElem, hid, hid']
      exact h.entityText_member_eq hp hq hr f hm hm'
    · simp only [List.get_eq_getElem, hdotted, hname]
    · simp only [hdepth]

end Twins

/-- A document that is in two projects has the same block in both. -/
theorem block_eq_of_contains (hp : p.Arena) (hq : q.Arena)
    (hr : ∀ r, q.resolve r = p.resolve r) {d : TypeDocument} (hi : p.Contains d i)
    (hj : q.Contains d j) (f : Facets) : Listing.block f q j = Listing.block f p i := by
  have hlines := List.rel_flatMap (twins_below hp hq hi hj)
    fun _ _ h => h.line_entriesAt hp hq hr f none
  obtain ⟨t, ht, ho, -⟩ := hi.exists_definition
  obtain ⟨u, hu, ho', -⟩ := hj.exists_definition
  rw [Listing.block, Listing.block, ht, hu]
  simp only [hp.entriesBelow_topLevel ht ho, hq.entriesBelow_topLevel hu ho',
    Listing.lines_congr hlines]

/-- The text of the block of a document; there is nothing to show for one that has none. -/
def blockOf (f : Facets) (p : Project) (d : TypeDocument) : String :=
  match (p.find? d.key).map (Listing.block f p) with
  | some (.ok text) => text
  | _ => ""

theorem WellFormed.block_eq_blockOf (hp : p.WellFormed) {text : String}
    (h : listing f p none = .ok text) {d : TypeDocument} (hd : p.Contains d i) :
    Listing.block f p i = .ok (blockOf f p d) := by
  obtain ⟨t, ht, ho, -⟩ := hd.exists_definition
  obtain ⟨b, hb⟩ := hp.toArena.exists_block h i (hp.toArena.mem_topIds_iff.2 ⟨t, ht, ho⟩)
  rw [blockOf, hp.find?_key hd, Option.map_some, hb]

/-- If there is a listing of a snapshot, its blocks make the listing of any of its documents. -/
theorem WellFormed.listing_eq_blocks (hp : p.WellFormed) (hq : q.Arena)
    {ds es : List TypeDocument} (hds : p.LaidOut ds) (hes : q.LaidOut es) (hsub : es ⊆ ds)
    (hr : ∀ r, q.resolve r = p.resolve r) {text : String} (h : listing f p none = .ok text) :
    listing f q none = .ok (String.join (es.map (blockOf f p))) := by
  have hcontains := (List.forall₂_and_left _ _).2
    ⟨fun d hd => hds.exists_contains (hsub hd), hes.contains⟩
  refine hq.listing_of_blocks (hcontains.imp ?_)
  rintro d j ⟨⟨i, hi⟩, hj⟩
  rw [block_eq_of_contains hp.toArena hq hr hi hj]
  exact hp.block_eq_blockOf h hi

end Project

/-- Whether a snapshot is accepted does not depend on the order of its types, and neither do the
names that are found, what references resolve to, and the texts of the types and members. The
listing has the same block for each type that is not nested, in the order of the snapshot. -/
theorem snapshot_perm {d d' : AssemblyDocument} (h : d.types.Perm d'.types) :
    ((∃ p, Project.ofDocument d = .ok p) ↔ ∃ q, Project.ofDocument d' = .ok q) ∧
      ∀ {p q}, Project.ofDocument d = .ok p → Project.ofDocument d' = .ok q →
        (∀ key, (q.find? key).isSome = (p.find? key).isSome) ∧
        (∀ r, q.resolve r = p.resolve r) ∧
        (∀ {key i j}, p.find? key = some i → q.find? key = some j → ∀ f,
          entityText f q (.type j) = entityText f p (.type i) ∧
          ∀ k, (q.member? ⟨j, k⟩).map (fun m => m.toMemberDocument) =
              (p.member? ⟨i, k⟩).map (fun m => m.toMemberDocument) ∧
            ∀ {m m'}, p.member? ⟨i, k⟩ = some m → q.member? ⟨j, k⟩ = some m' →
              entityText f q (.member ⟨j, k⟩) = entityText f p (.member ⟨i, k⟩)) ∧
        ∀ {f text}, listing f p none = .ok text → ∃ blocks : TypeDocument → String,
          (∀ t ∈ d.types, ∃ i j, p.find? t.key = some i ∧ q.find? t.key = some j ∧
            Listing.block f p i = .ok (blocks t) ∧ Listing.block f q j = .ok (blocks t)) ∧
          text = String.join (d.types.map blocks) ∧
          listing f q none = .ok (String.join (d'.types.map blocks)) := by
  refine ⟨Project.exists_ofDocument_perm h, fun {p q} hp hq => ?_⟩
  have hds := Project.laidOut_of_ofDocument hp
  have hes := Project.laidOut_of_ofDocument hq
  have hwp := (Project.reachable_of_ofDocument hp).wellFormed
  have hwq := (Project.reachable_of_ofDocument hq).wellFormed
  have hfinds := hwp.findsTwins hwq hds hes h.subset
  have hfinds' := hwq.findsTwins hwp hes hds h.symm.subset
  have hr : ∀ r, q.resolve r = p.resolve r :=
    Project.resolve_eq_of_findsTwins hfinds hfinds' hds.arena hes.arena
  refine ⟨Project.isSome_find?_eq hfinds hfinds', hr, fun {key i j} hi hj f => ?_, ?_⟩
  · obtain ⟨j', hj', htwins⟩ := hfinds key i hi
    obtain rfl := Option.some.inj (hj.symm.trans hj')
    refine ⟨htwins.entityText_type_eq hds.arena hes.arena f, fun k => ?_⟩
    exact ⟨htwins.memberDocument_eq k,
      fun hm hm' => htwins.entityText_member_eq hds.arena hes.arena hr f hm hm'⟩
  · intro f text htext
    have hself := hwp.listing_eq_blocks hds.arena hds hds (List.Subset.refl _) (fun _ => rfl) htext
    refine ⟨Project.blockOf f p, fun t ht => ?_, Except.ok.inj (htext.symm.trans hself),
      hwp.listing_eq_blocks hes.arena hds hes h.symm.subset hr htext⟩
    obtain ⟨i, hi⟩ := hds.exists_contains ht
    obtain ⟨j, hj⟩ := hes.exists_contains (h.subset ht)
    have hblock := hwp.block_eq_blockOf htext hi
    refine ⟨i, j, hwp.find?_key hi, hwq.find?_key hj, hblock, ?_⟩
    rw [Project.block_eq_of_contains hds.arena hes.arena hr hi hj, hblock]

/-- The documents of the shop, the last one first. -/
def swappedSnapshot : AssemblyDocument where
  types := shopSnapshot.types.reverse

def swappedProject : Project := (Project.ofDocument swappedSnapshot).toOption.getD ∅

theorem ofDocument_swapped : Project.ofDocument swappedSnapshot = .ok swappedProject :=
  eq_ok_of_isOk (by decide +kernel) ∅

/-- A type has another identifier and the same text, and the two blocks of the listing change
places. -/
theorem snapshot_perm_shop :
    shopSnapshot.types.Perm swappedSnapshot.types ∧
      Project.ofDocument shopSnapshot = .ok shopProject ∧
      Project.ofDocument swappedSnapshot = .ok swappedProject ∧
      shopProject.find? ⟨"Panel", 0⟩ = some ⟨0⟩ ∧ swappedProject.find? ⟨"Panel", 0⟩ = some ⟨2⟩ ∧
      (∀ f, entityText f swappedProject (.type ⟨2⟩) = entityText f shopProject (.type ⟨0⟩)) ∧
      ∃ panel outer, listing .everything shopProject none = .ok (panel ++ outer) ∧
        listing .everything swappedProject none = .ok (outer ++ panel) := by
  have hperm : shopSnapshot.types.Perm swappedSnapshot.types := (List.reverse_perm _).symm
  have hfind : shopProject.find? ⟨"Panel", 0⟩ = some ⟨0⟩ := by decide +kernel
  have hfind' : swappedProject.find? ⟨"Panel", 0⟩ = some ⟨2⟩ := by decide +kernel
  obtain ⟨-, -, htexts, hlisting⟩ := (snapshot_perm hperm).2 ofDocument_shop ofDocument_swapped
  have htext := eq_ok_of_isOk (x := listing .everything shopProject none) (by decide +kernel) ""
  obtain ⟨blocks, -, hjoin, hswapped⟩ := hlisting htext
  refine ⟨hperm, ofDocument_shop, ofDocument_swapped, hfind, hfind',
    fun f => (htexts hfind hfind' f).1, blocks (Project.panelDocument "Corner"),
    blocks (Project.outerDocument ["T"]), ?_, ?_⟩
  · rw [htext, hjoin]
    simp [shopSnapshot]
  · rw [hswapped]
    simp [swappedSnapshot, shopSnapshot]

end QuickInfo
