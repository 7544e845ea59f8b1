import QuickInfo.Proofs.Snapshot.Levels

/-!
# References as records

A reference in memory is an object with one field that gives its kind. The kind decides which record
the object is read as; the record passes over the field that gives the kind.
-/
namespace QuickInfo.Snapshot

open Json (Source Decoder Record)
open Json.Decode

variable {ε : Type} {position : Position} {fields : List (String × Json)}

/-- The fields that give a kind. -/
def tags (fields : List (String × Json)) : List (String × Json) :=
  fields.filter fun field => field.1 = "kind"

/-- The fields that do not. -/
def untagged (fields : List (String × Json)) : List (String × Json) :=
  fields.filter fun field => field.1 ≠ "kind"

theorem tags_middle {key : String} (hkey : key ≠ "kind") (front back : List (String × Json))
    (v : Json) : tags (front ++ (key, v) :: back) = tags (front ++ back) := by
  simp [tags, hkey]

theorem tags_eq_nil_iff : tags fields = [] ↔ ∀ field ∈ fields, field.1 ≠ "kind" := by
  simp [tags]

theorem untagged_of_tags_eq_nil (h : tags fields = []) : untagged fields = fields := by
  simpa [untagged] using tags_eq_nil_iff.1 h

/-- Once the kind is known, no other field may give it. -/
theorem referenceFields_some_eq_ok_iff {k : ReferenceKind} {done : List (String × Json)}
    {tagged : ReferenceKind × Json} :
    referenceFields position none (some k) done
        (Source.ofFields fields : List (Json.Key ε × Source ε)) = .ok tagged ↔
      tags fields = [] ∧ tagged = (k, .object (done.reverse ++ fields)) := by
  induction fields generalizing done with
  | nil =>
    simp [referenceFields, Source.ofFields, tags, check, Source.check, faulty, bind, Except.bind,
      pure, Except.pure, eq_comm]
  | cons field fields ih =>
    obtain ⟨key, v⟩ := field
    rw [Source.ofFields]
    by_cases hkey : key = "kind"
    · subst hkey
      simp [referenceFields_duplicate, mismatch, tags]
    · rw [referenceFields_other hkey, Source.value_ofJson]
      have htags : tags ((key, v) :: fields) = tags fields := tags_middle hkey [] fields v
      rw [htags]
      refine Iff.trans ih ?_
      rw [List.reverse_cons, List.append_assoc]
      rfl

/-- The kind of a reference is the value of the one field that gives it; the others are its
parts. -/
theorem referenceFields_none_eq_ok_iff {done : List (String × Json)} {k : ReferenceKind}
    {parts : Json} :
    referenceFields position none none done
        (Source.ofFields fields : List (Json.Key ε × Source ε)) = .ok (k, parts) ↔
      ∃ v, tags fields = [("kind", v)] ∧
        referenceKind position (Source.ofJson v : Source ε) = .ok k ∧
        parts = .object (done.reverse ++ untagged fields) := by
  induction fields generalizing done with
  | nil =>
    simp [referenceFields, Source.ofFields, tags, check, Source.check, faulty, bind, Except.bind,
      mismatch]
  | cons field fields ih =>
    obtain ⟨key, v⟩ := field
    rw [Source.ofFields]
    by_cases hkey : key = "kind"
    · subst hkey
      have htags : tags (("kind", v) :: fields) = ("kind", v) :: tags fields := by simp [tags]
      have hrest : untagged (("kind", v) :: fields) = untagged fields := by simp [untagged]
      rw [referenceFields_kind, htags, hrest]
      constructor
      · intro h
        obtain ⟨k', hk, h⟩ := Json.bind_eq_ok_iff.1 h
        obtain ⟨hnil, h⟩ := referenceFields_some_eq_ok_iff.1 h
        obtain ⟨rfl, rfl⟩ := Prod.mk.inj h
        exact ⟨v, by rw [hnil], hk, by rw [untagged_of_tags_eq_nil hnil]⟩
      · rintro ⟨w, hw, hk, rfl⟩
        obtain ⟨hvw, hnil⟩ := List.cons.inj hw
        obtain rfl := (Prod.mk.inj hvw).2
        refine Json.bind_eq_ok_iff.2 ⟨k, hk, referenceFields_some_eq_ok_iff.2 ⟨hnil, ?_⟩⟩
        rw [untagged_of_tags_eq_nil hnil]
    · rw [referenceFields_other hkey, Source.value_ofJson]
      have htags : tags ((key, v) :: fields) = tags fields := tags_middle hkey [] fields v
      have hrest : untagged ((key, v) :: fields) = (key, v) :: untagged fields := by
        simp [untagged, hkey]
      rw [htags, hrest]
      refine Iff.trans ih ?_
      rw [List.reverse_cons, List.append_assoc]
      rfl

theorem field?_kind (d : Decoder Empty TypeReference) (kind : ReferenceKind) :
    (kind.record d).field? "kind" = none := by
  cases kind <;> rfl

theorem record_blank (d : Decoder Empty TypeReference) (kind : ReferenceKind) :
    (kind.record d).blank = {} := by
  cases kind <;> rfl

/-- A reference is read from an object as the record of its kind. -/
theorem referenceAt_object_eq_ok_iff {t : TypeReference} :
    referenceAt position (Source.ofJson (.object fields)) = .ok t ↔
      ∃ v kind a, tags fields = [("kind", v)] ∧
        referenceKind position (Source.ofJson v : Source Empty) = .ok kind ∧
        (kind.record (referenceAt .inner)).load [] {} fields = .ok a ∧ kind.build a = t := by
  have hload : ∀ kind : ReferenceKind, ∀ a : ReferenceParts,
      (kind.record (referenceAt .inner)).decode .buffer
        (Source.ofJson (.object (untagged fields))) = .ok a ↔
      (kind.record (referenceAt .inner)).load [] {} fields = .ok a := by
    intro kind a
    rw [Record.decode_object, record_blank]
    exact Record.load_filter_eq_ok_iff (field?_kind _ kind)
  rw [referenceAt_eq]
  constructor
  · intro h
    obtain ⟨⟨kind, parts⟩, hparts, h⟩ := Json.bind_eq_ok_iff.1 h
    obtain ⟨v, htag, hkind, rfl⟩ := referenceFields_none_eq_ok_iff.1 hparts
    obtain ⟨a, ha, h⟩ := Json.map_eq_ok_iff.1 h
    exact ⟨v, kind, a, htag, hkind, (hload kind a).1 ha, h⟩
  · rintro ⟨v, kind, a, htag, hkind, ha, h⟩
    refine Json.bind_eq_ok_iff.2 ⟨(kind, .object (untagged fields)), ?_, ?_⟩
    · exact referenceFields_none_eq_ok_iff.2 ⟨v, htag, hkind, rfl⟩
    · exact Json.map_eq_ok_iff.2 ⟨a, (hload kind a).2 ha, h⟩

end QuickInfo.Snapshot
