import Mathlib.Data.List.Forall2
import QuickInfo.Proofs.Json.Record

/-!
# Levels of sources

A value in memory has as many levels as its source. A list or a record reads a source alike with two
decoders that read alike what has fewer levels.
-/
namespace QuickInfo.Json

variable {ε α : Type}

theorem Source.depth_pos (v : Source ε) : 0 < v.depth := by
  cases v <;> exact Nat.succ_pos _

theorem depthFields_le_iff {fields : List (String × Json)} {n : Nat} :
    depthFields fields ≤ n ↔ ∀ field ∈ fields, field.2.depth ≤ n := by
  induction fields with
  | nil => simp [depthFields]
  | cons field fields ih => rw [depthFields, Nat.max_le, ih, List.forall_mem_cons]

namespace Source

mutual

theorem depth_ofJson (j : Json) : (ofJson j : Source ε).depth = j.depth := by
  cases j with
  | array items => rw [ofJson, depth, depthItems_ofItems items, Json.depth]
  | object fields => rw [ofJson, depth, depthFields_ofFields fields, Json.depth]
  | _ => rfl

theorem depthItems_ofItems (js : List Json) :
    depthItems (ofItems js : List (Source ε)) = Json.depthItems js := by
  cases js with
  | nil => rfl
  | cons j js => rw [ofItems, depthItems, depth_ofJson j, depthItems_ofItems js, Json.depthItems]

theorem depthFields_ofFields (fields : List (String × Json)) :
    depthFields (ofFields fields : List (Key ε × Source ε)) = Json.depthFields fields := by
  cases fields with
  | nil => rfl
  | cons field fields =>
    rw [ofFields, depthFields, depth_ofJson field.2, depthFields_ofFields fields,
      Json.depthFields]

end

mutual

theorem depth_of_value {v : Source ε} {j : Json} (h : v.value = .ok j) : j.depth = v.depth := by
  cases v with
  | array vs stop =>
    obtain ⟨js, hjs, h⟩ := bind_eq_ok_iff.1 h
    obtain ⟨_, _, h⟩ := bind_eq_ok_iff.1 h
    obtain rfl := Except.ok.inj h
    rw [Json.depth, depth, depthItems_of_values hjs]
  | object fields stop =>
    obtain ⟨js, hjs, h⟩ := bind_eq_ok_iff.1 h
    obtain ⟨_, _, h⟩ := bind_eq_ok_iff.1 h
    obtain rfl := Except.ok.inj h
    rw [Json.depth, depth, depthFields_of_valueFields hjs]
  | damaged d => cases h
  | deep fault v => cases h
  | _ =>
    obtain rfl := Except.ok.inj h
    rfl

theorem depthItems_of_values {vs : List (Source ε)} {js : List Json} (h : values vs = .ok js) :
    Json.depthItems js = depthItems vs := by
  cases vs with
  | nil =>
    obtain rfl := Except.ok.inj h
    rfl
  | cons v vs =>
    obtain ⟨j, hj, h⟩ := bind_eq_ok_iff.1 h
    obtain ⟨rest, hrest, h⟩ := bind_eq_ok_iff.1 h
    obtain rfl := Except.ok.inj h
    rw [Json.depthItems, depthItems, depth_of_value hj, depthItems_of_values hrest]

theorem depthFields_of_valueFields {fields : List (Key ε × Source ε)}
    {js : List (String × Json)} (h : valueFields fields = .ok js) :
    Json.depthFields js = depthFields fields := by
  cases fields with
  | nil =>
    obtain rfl := Except.ok.inj h
    rfl
  | cons field fields =>
    obtain ⟨key, v⟩ := field
    cases key with
    | error d => cases h
    | ok key =>
      obtain ⟨j, hj, h⟩ := bind_eq_ok_iff.1 h
      obtain ⟨rest, hrest, h⟩ := bind_eq_ok_iff.1 h
      obtain rfl := Except.ok.inj h
      rw [Json.depthFields, depthFields, depth_of_value hj, depthFields_of_valueFields hrest]

end

end Source

/-- Two decoders read alike what has fewer levels. -/
def Decoder.AgreeBelow (n : Nat) (d e : Decoder ε α) : Prop :=
  ∀ v, v.depth < n → d v = e v

theorem Decoder.AgreeBelow.mono {n m : Nat} {d e : Decoder ε α} (h : Decoder.AgreeBelow n d e)
    (hm : m ≤ n) : Decoder.AgreeBelow m d e :=
  fun v hv => h v (Nat.lt_of_lt_of_le hv hm)

/-- A list is read alike if what is in it is. -/
theorem Decode.list_congr {d e : Decoder ε α} {v : Source ε} (h : d.AgreeBelow v.depth e) :
    list d v = list e v := by
  have hitems : ∀ {n : Nat} {vs : List (Source ε)}, d.AgreeBelow n e → Source.depthItems vs < n →
      items d vs = items e vs := by
    intro n vs hagree
    induction vs with
    | nil =>
      intro _
      rfl
    | cons u vs ih =>
      intro hdepth
      obtain ⟨hu, hvs⟩ := Nat.max_lt.1 hdepth
      rw [items, items, hagree u hu, ih hvs]
  cases v with
  | array vs stop =>
    rw [list, list, hitems h (Nat.lt_succ_self _)]
  | deep fault v => cases v <;> rfl
  | _ => rfl

/-- Two fields store alike what has fewer levels. -/
structure Field.AgreeBelow (n : Nat) (f g : Field ε α) : Prop where
  key_eq : f.key = g.key
  required_eq : f.required = g.required
  read_eq : ∀ v a, v.depth < n → f.read v a = g.read v a

theorem Field.AgreeBelow.refl (n : Nat) (f : Field ε α) : f.AgreeBelow n f :=
  ⟨rfl, rfl, fun _ _ _ => rfl⟩

/-- Two records with the same fields, which store alike what has fewer levels. -/
structure Record.AgreeBelow (n : Nat) (r s : Record ε α) : Prop where
  name_eq : r.name = s.name
  blank_eq : r.blank = s.blank
  fields : List.Forall₂ (Field.AgreeBelow n) r.fields s.fields

namespace Record

variable {n : Nat} {r s : Record ε α}

theorem find?_of_forall₂ {fs gs : List (Field ε α)} (h : List.Forall₂ (Field.AgreeBelow n) fs gs)
    {p : Field ε α → Bool} (hp : ∀ f g, Field.AgreeBelow n f g → p f = p g) :
    Option.Rel (Field.AgreeBelow n) (fs.find? p) (gs.find? p) := by
  induction h with
  | nil => exact .none
  | cons hfg _ ih =>
    rw [List.find?_cons, List.find?_cons, hp _ _ hfg]
    split
    · exact .some hfg
    · exact ih

theorem AgreeBelow.field? (h : r.AgreeBelow n s) (key : String) :
    Option.Rel (Field.AgreeBelow n) (r.field? key) (s.field? key) :=
  find?_of_forall₂ h.fields fun f g hfg => by rw [hfg.key_eq]

theorem AgreeBelow.missing?_eq (h : r.AgreeBelow n s) (seen : List String) :
    r.missing? seen = s.missing? seen := by
  have hfind := find?_of_forall₂ h.fields (p := fun f => f.required && !seen.contains f.key)
    fun f g hfg => by rw [hfg.key_eq, hfg.required_eq]
  rw [missing?, missing?]
  generalize r.fields.find? _ = f at hfind ⊢
  generalize s.fields.find? _ = g at hfind ⊢
  cases hfind with
  | none => rfl
  | some hfg => exact congrArg some hfg.key_eq

theorem ofFields_congr (h : r.AgreeBelow n s) {stop : Option ε} {seen : List String} {a : α}
    {fields : List (Key ε × Source ε)} (hdepth : Source.depthFields fields < n) :
    r.ofFields stop seen a fields = s.ofFields stop seen a fields := by
  induction fields generalizing seen a with
  | nil => rw [ofFields, ofFields, h.missing?_eq]
  | cons field fields ih =>
    obtain ⟨key, v⟩ := field
    obtain ⟨hv, hfields⟩ := Nat.max_lt.1 hdepth
    cases key with
    | error damage => rfl
    | ok key =>
      rw [ofFields, ofFields]
      have hfield := h.field? key
      generalize r.field? key = f at hfield ⊢
      generalize s.field? key = g at hfield ⊢
      cases hfield with
      | none => simp only [ih hfields]
      | some hfg => simp only [hfg.read_eq v _ hv, ih hfields]

theorem ofItems_congr (h : r.AgreeBelow n s) (medium : Medium ε) {length : Nat} {stop : Option ε}
    {position : Nat} {a : α} {fs gs : List (Field ε α)}
    (hfs : List.Forall₂ (Field.AgreeBelow n) fs gs) {vs : List (Source ε)}
    (hdepth : Source.depthItems vs < n) :
    ofItems medium r length stop position a fs vs =
      ofItems medium s length stop position a gs vs := by
  induction hfs generalizing position a vs with
  | nil =>
    cases vs with
    | nil => rfl
    | cons v vs => rw [ofItems, ofItems, h.fields.length_eq]
  | cons hfg _ ih =>
    cases vs with
    | nil =>
      rw [ofItems, ofItems, hfg.required_eq, h.name_eq, h.fields.length_eq, ih hdepth]
    | cons v vs =>
      obtain ⟨hv, hvs⟩ := Nat.max_lt.1 hdepth
      rw [ofItems, ofItems, hfg.read_eq v _ hv]
      simp only [ih hvs]

/-- A source is read alike if what is in it is. -/
theorem decode_congr {medium : Medium ε} {v : Source ε} (h : r.AgreeBelow v.depth s) :
    r.decode medium v = s.decode medium v := by
  cases v with
  | object fields stop =>
    rw [decode, decode, h.blank_eq]
    exact ofFields_congr h (Nat.lt_succ_self _)
  | array vs stop =>
    rw [decode, decode, h.blank_eq]
    exact ofItems_congr h medium h.fields (Nat.lt_succ_self _)
  | deep fault v => rfl
  | _ => exact congrArg (fun name => Except.error (Source.mistyped name _)) h.name_eq

end Record

end QuickInfo.Json
