import Mathlib.Data.List.Nodup
import Mathlib.Data.List.Pairwise
import QuickInfo.Json.Decode

/-!
# Records in memory

What a record reads from an object in memory depends neither on the order of the fields nor on keys
that the record does not have, and a field whose value is that of the blank record may be left out.
-/
namespace QuickInfo.Json

open Decode

theorem bind_eq_ok_iff {δ α β : Type} {e : Except δ α} {g : α → Except δ β} {b : β} :
    (e >>= g) = .ok b ↔ ∃ a, e = .ok a ∧ g a = .ok b := by
  cases e with
  | error d =>
    constructor
    · intro h
      cases h
    · rintro ⟨a, ha, -⟩
      cases ha
  | ok a =>
    constructor
    · intro h
      exact ⟨a, rfl, h⟩
    · rintro ⟨a', ha, h⟩
      rwa [Except.ok.inj ha]

theorem map_eq_ok_iff {δ α β : Type} {e : Except δ α} {g : α → β} {b : β} :
    g <$> e = .ok b ↔ ∃ a, e = .ok a ∧ g a = b := by
  cases e <;> simp [Functor.map, Except.map]

theorem bind_congr_ok {δ α β : Type} {e : Except δ α} {g g' : α → Except δ β}
    (h : ∀ a, e = .ok a → g a = g' a) : (e >>= g) = e >>= g' := by
  cases e with
  | error d => rfl
  | ok a => exact h a rfl

variable {ε α : Type}

/-- What the decoder reads from the one value it reads from the other as well. -/
def Decoder.Follows (d : Decoder ε α) (j j' : Json) : Prop :=
  ∀ a, d (Source.ofJson j) = .ok a → d (Source.ofJson j') = .ok a

/-- A list is read alike if one of its items is replaced by another that is read alike. -/
theorem Decoder.Follows.list {d : Decoder ε α} {j j' : Json} (h : d.Follows j j')
    (front back : List Json) :
    (Decode.list d).Follows (.array (front ++ j :: back)) (.array (front ++ j' :: back)) := by
  have hitems : ∀ as, items d (Source.ofItems (front ++ j :: back)) = .ok as →
      items d (Source.ofItems (front ++ j' :: back)) = .ok as := by
    induction front with
    | nil =>
      intro as has
      obtain ⟨a, ha, has⟩ := bind_eq_ok_iff.1 has
      exact bind_eq_ok_iff.2 ⟨a, h a ha, has⟩
    | cons i front ih =>
      intro as has
      obtain ⟨a, ha, has⟩ := bind_eq_ok_iff.1 has
      obtain ⟨rest, hrest, has⟩ := bind_eq_ok_iff.1 has
      exact bind_eq_ok_iff.2 ⟨a, ha, bind_eq_ok_iff.2 ⟨rest, ih rest hrest, has⟩⟩
  intro as has
  obtain ⟨bs, hbs, has⟩ := bind_eq_ok_iff.1 has
  exact bind_eq_ok_iff.2 ⟨bs, hitems bs hbs, has⟩

namespace Field

/-- The field stores what the decoder reads. -/
def Stores {β : Type} (f : Field ε α) (d : Decoder ε β) (set : β → α → α) : Prop :=
  ∀ v a, f.read v a = d v >>= fun x => pure (set x a)

/-- What the field stores of the one value it stores of the other as well. -/
def Follows (f : Field ε α) (j j' : Json) : Prop :=
  ∀ a b, f.read (Source.ofJson j) a = .ok b → f.read (Source.ofJson j') a = .ok b

/-- Two fields are stored apart, so that they may be read in either order. -/
def Apart (f g : Field ε α) : Prop :=
  ∀ u v a c, (f.read u a >>= g.read v) = .ok c ↔ (g.read v a >>= f.read u) = .ok c

variable {f g : Field ε α} {β γ : Type} {d : Decoder ε β} {e : Decoder ε γ} {set : β → α → α}
  {put : γ → α → α}

instance : Std.Symm (@Apart ε α) where
  symm _ _ h u v a c := (h v u a c).symm

theorem Stores.follows {j j' : Json} (hf : f.Stores d set) (h : d.Follows j j') :
    f.Follows j j' := by
  intro a b hb
  rw [hf] at hb ⊢
  obtain ⟨x, hx, hb⟩ := bind_eq_ok_iff.1 hb
  exact bind_eq_ok_iff.2 ⟨x, h x hx, hb⟩

theorem apart_of_stores (hf : f.Stores d set) (hg : g.Stores e put)
    (h : ∀ x y a, put y (set x a) = set x (put y a)) : f.Apart g := by
  intro u v a c
  cases hd : d u with
  | error m =>
    cases he : e v with
    | error n => simp [hf u, hg v, hd, he, bind, Except.bind]
    | ok y => simp [hf u, hg v, hd, he, bind, Except.bind, pure, Except.pure]
  | ok x =>
    cases he : e v with
    | error n => simp [hf u, hg v, hd, he, bind, Except.bind, pure, Except.pure]
    | ok y => simp [hf u, hg v, hd, he, bind, Except.bind, pure, Except.pure, h]

end Field

namespace Record

/-- The fields have different keys and are stored apart. -/
structure Separate (r : Record ε α) : Prop where
  distinct : (r.fields.map Field.key).Nodup
  apart : r.fields.Pairwise Field.Apart

/-- Stores the values of fields of an object in memory; the `seen` fields are stored already. -/
def load (r : Record ε α) (seen : List String) (a : α) (fields : List (String × Json)) :
    Except (Failure ε) α :=
  r.ofFields none seen a (Source.ofFields fields)

variable {r : Record ε α} {f : Field ε α} {k : String} {v v' : Json} {seen seen' : List String}
  {fields fields' : List (String × Json)} {a b x : α}

theorem decode_object (r : Record ε α) (medium : Medium ε) (fields : List (String × Json)) :
    r.decode medium (Source.ofJson (.object fields)) = r.load [] r.blank fields :=
  rfl

theorem field?_eq_some (h : r.field? k = some f) : f ∈ r.fields ∧ f.key = k :=
  ⟨List.mem_of_find?_eq_some h, by simpa using List.find?_some h⟩

theorem field?_eq_none_iff : r.field? k = none ↔ ∀ f ∈ r.fields, f.key ≠ k := by
  simp [field?]

theorem missing?_eq_none_iff :
    r.missing? seen = none ↔ ∀ f ∈ r.fields, f.required = true → f.key ∈ seen := by
  simp [missing?]

theorem load_nil_eq_ok_iff :
    r.load seen a [] = .ok x ↔ (∀ f ∈ r.fields, f.required = true → f.key ∈ seen) ∧ a = x := by
  rw [← missing?_eq_none_iff, load, Source.ofFields, ofFields]
  cases r.missing? seen with
  | some key => simp [check, Source.check, faulty, bind, Except.bind, mismatch]
  | none => simp [check, Source.check, faulty, bind, Except.bind, pure, Except.pure]

/-- A key that the record does not have is passed over. -/
theorem load_unknown (h : r.field? k = none) (seen : List String) (a : α) (v : Json)
    (fields : List (String × Json)) : r.load seen a ((k, v) :: fields) = r.load seen a fields := by
  rw [load, Source.ofFields, ofFields, h]
  simp only [Source.skip_ofJson]
  rfl

theorem load_known_eq_ok_iff (h : r.field? k = some f) :
    r.load seen a ((k, v) :: fields) = .ok x ↔ k ∉ seen ∧
      ∃ b, f.read (Source.ofJson v) a = .ok b ∧ r.load (k :: seen) b fields = .ok x := by
  rw [load, Source.ofFields, ofFields, h]
  by_cases hk : k ∈ seen
  · simp [hk, mismatch]
  · simp only [List.contains_eq_mem, decide_eq_true_eq, hk, if_false, not_false_eq_true, true_and]
    exact bind_eq_ok_iff

/-- A field stores the value that is read from it. -/
theorem load_stored {β : Type} {d : Decoder ε β} {set : β → α → α} {y : β}
    (hf : r.field? k = some f) (hstores : f.Stores d set) (hk : k ∉ seen)
    (hread : d (Source.ofJson v) = .ok y) (h : r.load (k :: seen) (set y a) fields = .ok x) :
    r.load seen a ((k, v) :: fields) = .ok x := by
  refine (load_known_eq_ok_iff hf).2 ⟨hk, set y a, ?_, h⟩
  rw [hstores, hread]
  rfl

/-- All fields with a key that the record does not have are passed over. -/
theorem load_filter_eq_ok_iff (h : r.field? k = none) :
    r.load seen a (fields.filter fun field => field.1 ≠ k) = .ok x ↔
      r.load seen a fields = .ok x := by
  induction fields generalizing seen a with
  | nil => exact Iff.rfl
  | cons field fields ih =>
    obtain ⟨l, v⟩ := field
    by_cases hl : l = k
    · subst hl
      rw [List.filter_cons_of_neg (by simp), load_unknown h, ih]
    · rw [List.filter_cons_of_pos (by simpa using hl)]
      cases hf : r.field? l with
      | none => rw [load_unknown hf, load_unknown hf, ih]
      | some f => simp only [load_known_eq_ok_iff hf, ih]

/-- Fewer fields need to have been stored, if the required ones have been. -/
theorem load_of_seen (hsub : ∀ k ∈ seen', k ∈ seen)
    (hreq : ∀ f ∈ r.fields, f.required = true → f.key ∈ seen → f.key ∈ seen')
    (h : r.load seen a fields = .ok x) : r.load seen' a fields = .ok x := by
  induction fields generalizing seen seen' a with
  | nil =>
    obtain ⟨hseen, hx⟩ := load_nil_eq_ok_iff.1 h
    exact load_nil_eq_ok_iff.2 ⟨fun f hf hr => hreq f hf hr (hseen f hf hr), hx⟩
  | cons field fields ih =>
    obtain ⟨k, v⟩ := field
    cases hk : r.field? k with
    | none =>
      rw [load_unknown hk] at h ⊢
      exact ih hsub hreq h
    | some f =>
      obtain ⟨hnew, b, hread, hrest⟩ := (load_known_eq_ok_iff hk).1 h
      refine (load_known_eq_ok_iff hk).2 ⟨fun hold => hnew (hsub k hold), b, hread, ?_⟩
      apply ih _ _ hrest
      · intro l hl
        rcases List.mem_cons.1 hl with rfl | hl
        · exact List.mem_cons_self
        · exact List.mem_cons_of_mem _ (hsub l hl)
      · intro g hg hr hl
        rcases List.mem_cons.1 hl with hl | hl
        · exact hl ▸ List.mem_cons_self
        · exact List.mem_cons_of_mem _ (hreq g hg hr hl)

theorem load_swap (hr : r.Separate) {f g : Field ε α} {k l : String} {v w : Json}
    (hf : r.field? k = some f) (hg : r.field? l = some g)
    (h : r.load seen a ((k, v) :: (l, w) :: fields) = .ok x) :
    r.load seen a ((l, w) :: (k, v) :: fields) = .ok x := by
  obtain ⟨hk, b, hb, hrest⟩ := (load_known_eq_ok_iff hf).1 h
  obtain ⟨hl, c, hc, hrest⟩ := (load_known_eq_ok_iff hg).1 hrest
  obtain ⟨hlk, hl⟩ := not_or.1 (mt List.mem_cons.2 hl)
  have hne : f.key ≠ g.key := by
    rw [(field?_eq_some hf).2, (field?_eq_some hg).2]
    exact Ne.symm hlk
  have hapart : f.Apart g :=
    hr.apart.forall (field?_eq_some hf).1 (field?_eq_some hg).1 fun heq => hne (congrArg _ heq)
  obtain ⟨d, hd, hc⟩ := bind_eq_ok_iff.1 ((hapart _ _ a c).1 (bind_eq_ok_iff.2 ⟨b, hb, hc⟩))
  refine (load_known_eq_ok_iff hg).2 ⟨hl, d, hd, (load_known_eq_ok_iff hf).2 ⟨?_, c, hc, ?_⟩⟩
  · exact mt List.mem_cons.1 (not_or.2 ⟨Ne.symm hlk, hk⟩)
  · have hsame : ∀ m, m ∈ k :: l :: seen ↔ m ∈ l :: k :: seen := by
      intro m
      exact (List.Perm.swap l k seen).mem_iff
    exact load_of_seen (fun m => (hsame m).1) (fun f _ _ => (hsame f.key).2) hrest

/-- The order of the fields does not count. -/
theorem load_perm (hr : r.Separate) (hperm : fields.Perm fields')
    (h : r.load seen a fields = .ok x) : r.load seen a fields' = .ok x := by
  induction hperm generalizing seen a with
  | nil => exact h
  | cons field _ ih =>
    obtain ⟨k, v⟩ := field
    cases hk : r.field? k with
    | none =>
      rw [load_unknown hk] at h ⊢
      exact ih h
    | some f =>
      obtain ⟨hnew, b, hread, hrest⟩ := (load_known_eq_ok_iff hk).1 h
      exact (load_known_eq_ok_iff hk).2 ⟨hnew, b, hread, ih hrest⟩
  | swap first second fields =>
    obtain ⟨k, v⟩ := first
    obtain ⟨l, w⟩ := second
    cases hk : r.field? k with
    | none =>
      cases hl : r.field? l with
      | none => simpa only [load_unknown hk, load_unknown hl] using h
      | some g =>
        obtain ⟨hnew, b, hread, hrest⟩ := (load_known_eq_ok_iff hl).1 h
        rw [load_unknown hk] at hrest ⊢
        exact (load_known_eq_ok_iff hl).2 ⟨hnew, b, hread, hrest⟩
    | some f =>
      cases hl : r.field? l with
      | none =>
        rw [load_unknown hl] at h
        obtain ⟨hnew, b, hread, hrest⟩ := (load_known_eq_ok_iff hk).1 h
        refine (load_known_eq_ok_iff hk).2 ⟨hnew, b, hread, ?_⟩
        rwa [load_unknown hl]
      | some g => exact load_swap hr hl hk h
  | trans _ _ ih ih' => exact ih' (ih h)

/-- A field may be left out if its value is there already. -/
theorem load_omit (hr : r.Separate) (hf : r.field? k = some f) (hreq : f.required = false)
    (hread : f.read (Source.ofJson v) a = .ok a) (h : r.load seen a ((k, v) :: fields) = .ok x) :
    r.load seen a fields = .ok x := by
  obtain ⟨-, b, hb, hrest⟩ := (load_known_eq_ok_iff hf).1 h
  obtain rfl : a = b := Except.ok.inj (hread.symm.trans hb)
  refine load_of_seen (fun l => List.mem_cons_of_mem k) ?_ hrest
  intro g hg hrequired hkey
  rcases List.mem_cons.1 hkey with hkey | hseen
  · have hsame : f.key = g.key := (field?_eq_some hf).2.trans hkey.symm
    obtain rfl := List.inj_on_of_nodup_map hr.distinct (field?_eq_some hf).1 hg hsame
    rw [hreq] at hrequired
    cases hrequired
  · exact hseen

/-- The value of a field may be replaced by one that is stored alike. -/
theorem load_value (hf : r.field? k = some f) (hv : f.Follows v v')
    (h : r.load seen a ((k, v) :: fields) = .ok x) :
    r.load seen a ((k, v') :: fields) = .ok x := by
  obtain ⟨hnew, b, hb, hrest⟩ := (load_known_eq_ok_iff hf).1 h
  exact (load_known_eq_ok_iff hf).2 ⟨hnew, b, hv a b hb, hrest⟩

end Record

end QuickInfo.Json
