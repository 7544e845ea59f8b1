import QuickInfo.Proofs.Json.Levels
import QuickInfo.Snapshot

/-!
# Nested documents without levels

A document is read with as many levels as the source has. More levels change nothing, so that the
documents inside it are read by the same decoder, with levels of their own.
-/
namespace QuickInfo.Snapshot

open Json (Source Decoder Medium Field Record)
open Json.Decode

section Documents

variable {ε : Type} (medium : Medium ε)

theorem typeRecord_agreeBelow {n : Nat} {d e : Decoder ε TypeDocument} (h : d.AgreeBelow n e) :
    (typeRecord medium d).AgreeBelow n (typeRecord medium e) where
  name_eq := rfl
  blank_eq := rfl
  fields := by
    have hnested : ∀ v, v.depth < n → Json.Decode.list d v = Json.Decode.list e v :=
      fun v hv => Json.Decode.list_congr (h.mono (Nat.le_of_lt hv))
    -- only the last field reads nested documents
    iterate 7 refine .cons (.refl n _) ?_
    refine .cons ⟨rfl, rfl, fun v a hv => ?_⟩ .nil
    exact congrArg (· >>= _) (hnested v hv)

theorem typeDocumentWithin_congr {n m : Nat} {v : Source ε} (hn : v.depth ≤ n)
    (hm : v.depth ≤ m) : typeDocumentWithin medium n v = typeDocumentWithin medium m v := by
  induction n generalizing m v with
  | zero => exact absurd hn (Nat.not_le_of_gt v.depth_pos)
  | succ n ih =>
    cases m with
    | zero => exact absurd hm (Nat.not_le_of_gt v.depth_pos)
    | succ m =>
      apply Record.decode_congr
      apply typeRecord_agreeBelow
      intro u hu
      have hn' : u.depth ≤ n := Nat.le_of_lt_succ (Nat.lt_of_lt_of_le hu hn)
      have hm' : u.depth ≤ m := Nat.le_of_lt_succ (Nat.lt_of_lt_of_le hu hm)
      exact ih hn' hm'

/-- The documents nested in a document are read like the document. -/
theorem typeDocument_eq (v : Source ε) :
    typeDocument medium v = (typeRecord medium (typeDocument medium)).decode medium v := by
  obtain ⟨n, hn⟩ := Nat.exists_eq_succ_of_ne_zero (Nat.ne_of_gt v.depth_pos)
  have hlevel : typeDocument medium v =
      (typeRecord medium (typeDocumentWithin medium n)).decode medium v := by
    rw [typeDocument, hn]
    rfl
  rw [hlevel]
  apply Record.decode_congr
  apply typeRecord_agreeBelow
  intro u hu
  exact typeDocumentWithin_congr medium (Nat.le_of_lt_succ (hn ▸ hu)) (Nat.le_refl _)

end Documents

section References

variable {ε : Type}

theorem record_agreeBelow {n : Nat} {d e : Decoder Empty TypeReference} (h : d.AgreeBelow n e)
    (kind : ReferenceKind) : (kind.record d).AgreeBelow n (kind.record e) where
  name_eq := by cases kind <;> rfl
  blank_eq := by cases kind <;> rfl
  fields := by
    have helement : (ReferenceKind.elementField d).AgreeBelow n (ReferenceKind.elementField e) :=
      ⟨rfl, rfl, fun v a hv => congrArg (· >>= _) (h v hv)⟩
    have harguments :
        (ReferenceKind.argumentsField d).AgreeBelow n (ReferenceKind.argumentsField e) :=
      ⟨rfl, rfl, fun v a hv => congrArg (· >>= _)
        (Json.Decode.list_congr (h.mono (Nat.le_of_lt hv)))⟩
    cases kind with
    | named => exact .cons (.refl n _) (.cons harguments .nil)
    | typeParameter => exact .cons (.refl n _) .nil
    | array => exact .cons helement (.cons (.refl n _) .nil)
    | pointer => exact .cons helement .nil
    | byReference => exact .cons helement .nil

theorem decode_eq_of_agreeBelow {d e : Decoder Empty TypeReference} {parts : Json}
    (h : d.AgreeBelow parts.depth e) (kind : ReferenceKind) :
    kind.decode d parts = kind.decode e parts := by
  have hrecord : (kind.record d).AgreeBelow (Source.ofJson parts : Source Empty).depth
      (kind.record e) := by
    rw [Source.depth_ofJson]
    exact record_agreeBelow h kind
  rw [ReferenceKind.decode, ReferenceKind.decode, Record.decode_congr hrecord]

section Fields

variable {position : Position} {stop : Option ε} {done : List (String × Json)} {v : Source ε}
  {fields : List (Json.Key ε × Source ε)}

theorem referenceFields_other {key : String} (hkey : key ≠ "kind")
    (kind? : Option ReferenceKind) :
    referenceFields position stop kind? done ((.ok key, v) :: fields) = (do
      let j ← faulty v.value
      referenceFields position stop kind? ((key, j) :: done) fields) := by
  rw [referenceFields.eq_def]
  exact if_neg hkey

theorem referenceFields_kind :
    referenceFields position stop none done ((.ok "kind", v) :: fields) = (do
      let k ← referenceKind position v
      referenceFields position stop (some k) done fields) := by
  rw [referenceFields.eq_def]
  exact if_pos rfl

theorem referenceFields_duplicate (k : ReferenceKind) :
    referenceFields position stop (some k) done ((.ok "kind", v) :: fields) =
      mismatch (.duplicateField "kind") := by
  rw [referenceFields.eq_def]
  exact if_pos rfl

theorem faulty_eq_ok_iff {α : Type} {e : Except ε α} {a : α} :
    (faulty e : Except (Json.Failure ε) α) = .ok a ↔ e = .ok a := by
  cases e <;> simp [faulty]

end Fields

theorem depth_of_referenceFields {position : Position} {stop : Option ε}
    {kind? : Option ReferenceKind} {done : List (String × Json)}
    {fields : List (Json.Key ε × Source ε)} {kind : ReferenceKind} {parts : Json} {n : Nat}
    (hdone : ∀ field ∈ done, field.2.depth ≤ n) (hdepth : Source.depthFields fields ≤ n)
    (h : referenceFields position stop kind? done fields = .ok (kind, parts)) :
    parts.depth ≤ n + 1 := by
  induction fields generalizing kind? done with
  | nil =>
    obtain ⟨_, _, h⟩ := Json.bind_eq_ok_iff.1 h
    cases kind? with
    | none => cases h
    | some k =>
      obtain ⟨rfl, rfl⟩ := Prod.mk.inj (Except.ok.inj h)
      apply Nat.succ_le_succ
      apply Json.depthFields_le_iff.2
      intro field hfield
      exact hdone field (List.mem_reverse.1 hfield)
  | cons field fields ih =>
    obtain ⟨key, v⟩ := field
    obtain ⟨hv, hfields⟩ := Nat.max_le.1 hdepth
    cases key with
    | error d => cases h
    | ok key =>
      by_cases hkey : key = "kind"
      · subst hkey
        cases kind? with
        | some k => cases h
        | none =>
          obtain ⟨k, _, h⟩ := Json.bind_eq_ok_iff.1 h
          exact ih hdone hfields h
      · rw [referenceFields_other hkey] at h
        obtain ⟨j, hj, h⟩ := Json.bind_eq_ok_iff.1 h
        apply ih _ hfields h
        rintro field (_ | ⟨_, hfield⟩)
        · rwa [Source.depth_of_value (faulty_eq_ok_iff.1 hj)]
        · exact hdone field hfield

/-- The parts of a reference have no more levels than the reference. -/
theorem depth_of_taggedParts {position : Position} {v : Source ε} {kind : ReferenceKind}
    {parts : Json} (h : taggedParts position v = .ok (kind, parts)) : parts.depth ≤ v.depth := by
  cases v with
  | object fields stop =>
    exact depth_of_referenceFields (by simp) (Nat.le_refl _) h
  | array vs stop =>
    cases vs with
    | nil =>
      obtain ⟨_, _, h⟩ := Json.bind_eq_ok_iff.1 h
      cases h
    | cons v vs =>
      obtain ⟨k, _, h⟩ := Json.bind_eq_ok_iff.1 h
      obtain ⟨js, hjs, h⟩ := Json.bind_eq_ok_iff.1 h
      obtain ⟨_, _, h⟩ := Json.bind_eq_ok_iff.1 h
      obtain ⟨rfl, rfl⟩ := Prod.mk.inj (Except.ok.inj h)
      have hitems := Source.depthItems_of_values (faulty_eq_ok_iff.1 hjs)
      rw [Json.depth, hitems]
      exact Nat.succ_le_succ (Nat.le_max_right _ _)
  | _ => cases h

theorem innerReference_congr {n m : Nat} {v : Source Empty} (hn : v.depth ≤ n)
    (hm : v.depth ≤ m) : innerReference n v = innerReference m v := by
  induction n generalizing m v with
  | zero => exact absurd hn (Nat.not_le_of_gt v.depth_pos)
  | succ n ih =>
    cases m with
    | zero => exact absurd hm (Nat.not_le_of_gt v.depth_pos)
    | succ m =>
      rw [innerReference, innerReference]
      apply Json.bind_congr_ok
      rintro ⟨kind, parts⟩ hparts
      apply decode_eq_of_agreeBelow
      intro u hu
      have hdepth := Nat.lt_of_lt_of_le hu (depth_of_taggedParts hparts)
      have hn' : u.depth ≤ n := Nat.le_of_lt_succ (Nat.lt_of_lt_of_le hdepth hn)
      have hm' : u.depth ≤ m := Nat.le_of_lt_succ (Nat.lt_of_lt_of_le hdepth hm)
      exact ih hn' hm'

/-- A reference at a position. -/
def referenceAt (position : Position) : Decoder Empty TypeReference := fun v => do
  let (kind, parts) ← taggedParts position v
  kind.decode (innerReference parts.depth) parts

theorem innerReference_eq (v : Source Empty) :
    innerReference v.depth v = referenceAt .inner v := by
  obtain ⟨n, hn⟩ := Nat.exists_eq_succ_of_ne_zero (Nat.ne_of_gt v.depth_pos)
  rw [hn, innerReference, referenceAt]
  apply Json.bind_congr_ok
  rintro ⟨kind, parts⟩ hparts
  apply decode_eq_of_agreeBelow
  intro u hu
  have hdepth := Nat.lt_of_lt_of_le hu (depth_of_taggedParts hparts)
  rw [hn] at hdepth
  exact innerReference_congr (Nat.le_of_lt_succ hdepth) (Nat.le_of_lt hu)

/-- The references inside a reference are read like one at an inner position. -/
theorem referenceAt_eq (position : Position) (v : Source Empty) :
    referenceAt position v = (do
      let (kind, parts) ← taggedParts position v
      kind.decode (referenceAt .inner) parts) := by
  rw [referenceAt]
  apply Json.bind_congr_ok
  rintro ⟨kind, parts⟩ -
  apply decode_eq_of_agreeBelow
  intro u hu
  rw [← innerReference_eq]
  exact innerReference_congr (Nat.le_of_lt hu) (Nat.le_refl _)

theorem widen_eq {α : Type} (e : Except (Json.Failure Empty) α) : widen e = e := by
  cases e with
  | ok a => rfl
  | error e =>
    cases e with
    | mismatch m => rfl
    | fault e => exact e.elim

theorem reference_eq (v : Source Empty) : reference v = referenceAt .outer v := by
  rw [reference, referenceAt]
  apply Json.bind_congr_ok
  rintro ⟨kind, parts⟩ -
  exact widen_eq _

end References

end QuickInfo.Snapshot
