import Mathlib.Data.List.Induction

/-!
# Reading a text from its end

When two texts are the same, their final parts are the same if something marks where these begin: a
character that they do not have, or a separator between the items of a list.
-/
namespace QuickInfo.Text

variable {α β : Type}

/-- A final part in a class of characters is all of it that the text ends in, if the part before it
is empty or ends outside the class. -/
theorem append_inj_of_class {P : α → Prop} {r r' n n' : List α} (hr : ∀ c ∈ r.getLast?, ¬P c)
    (hr' : ∀ c ∈ r'.getLast?, ¬P c) (hn : ∀ c ∈ n, P c) (hn' : ∀ c ∈ n', P c)
    (h : r ++ n = r' ++ n') : r = r' ∧ n = n' := by
  rcases List.append_eq_append_iff.1 h with ⟨a, rfl, rfl⟩ | ⟨a, rfl, rfl⟩
  · -- what the one final part has more would end the other front
    rcases List.eq_nil_or_concat a with rfl | ⟨b, c, rfl⟩
    · simp
    · exact absurd (hn c (by simp)) (hr' c (by simp))
  · rcases List.eq_nil_or_concat a with rfl | ⟨b, c, rfl⟩
    · simp
    · exact absurd (hn' c (by simp)) (hr c (by simp))

/-- The texts of the items that follow the first one of a list, each after the separator. -/
def following (separator : List β) (text : α → List β) (as : List α) : List β :=
  as.flatMap fun a => separator ++ text a

theorem following_concat (separator : List β) (text : α → List β) (as : List α) (a : α) :
    following separator text (as ++ [a]) =
      following separator text as ++ separator ++ text a := by
  simp [following]

theorem intercalate_map_cons (separator : List β) (text : α → List β) (a : α) (as : List α) :
    separator.intercalate ((a :: as).map text) = text a ++ following separator text as := by
  induction as generalizing a with
  | nil => simp [following]
  | cons b as ih =>
    rw [List.map_cons, List.map_cons, List.intercalate_cons_cons, ← List.map_cons, ih b]
    simp [following]

/-- Where an item of a list may stand: where the list starts or after a separator. -/
def MayStand (S : List β → Prop) (separator : List β) (r : List β) : Prop :=
  S r ∨ ∃ z, r = z ++ separator

/-- Two lists with the same text have the same items and start at the same place, if this holds of
single items and no list starts after a separator. -/
theorem list_inj {separator : List β} {text : α → List β} {S : List β → Prop}
    (hstart : ∀ z, ¬S (z ++ separator)) {a b : α} {as bs : List α}
    (hitem : ∀ c ∈ a :: as, ∀ d ∈ b :: bs, ∀ {r r'}, MayStand S separator r →
      MayStand S separator r' → r ++ text c = r' ++ text d → r = r' ∧ c = d)
    {y y' : List β} (hy : S y) (hy' : S y')
    (h : y ++ (text a ++ following separator text as) =
      y' ++ (text b ++ following separator text bs)) :
    y = y' ∧ a :: as = b :: bs := by
  -- the last items are read first
  induction as using List.reverseRecOn generalizing bs with
  | nil =>
    rcases List.eq_nil_or_concat bs with rfl | ⟨ds, d, rfl⟩
    · obtain ⟨rfl, rfl⟩ := hitem a (by simp) b (by simp) (.inl hy) (.inl hy') (by
        simpa [following] using h)
      exact ⟨rfl, rfl⟩
    · obtain ⟨rfl, -⟩ := hitem a (by simp) d (by simp) (.inl hy)
        (.inr ⟨y' ++ text b ++ following separator text ds, rfl⟩) (by
          simpa [following] using h)
      exact absurd hy (hstart _)
  | append_singleton cs c ih =>
    rcases List.eq_nil_or_concat bs with rfl | ⟨ds, d, rfl⟩
    · obtain ⟨rfl, -⟩ := hitem c (by simp) b (by simp)
        (.inr ⟨y ++ text a ++ following separator text cs, rfl⟩) (.inl hy') (by
          simpa [following] using h)
      exact absurd hy' (hstart _)
    · have hcs : a :: cs ⊆ a :: (cs ++ [c]) := List.cons_subset_cons a (List.subset_append_left _ _)
      have hds : b :: ds ⊆ b :: ds.concat d := by
        rw [List.concat_eq_append]
        exact List.cons_subset_cons b (List.subset_append_left _ _)
      obtain ⟨hfront, rfl⟩ := hitem c (by simp) d (by simp)
        (.inr ⟨y ++ text a ++ following separator text cs, rfl⟩)
        (.inr ⟨y' ++ text b ++ following separator text ds, rfl⟩) (by
          simpa [following_concat] using h)
      obtain ⟨rfl, hlist⟩ := ih (fun c' hc d' hd => hitem c' (hcs hc) d' (hds hd)) (by
        simpa [List.append_assoc] using List.append_cancel_right hfront)
      obtain ⟨rfl, rfl⟩ := List.cons.inj hlist
      exact ⟨rfl, by simp⟩

end QuickInfo.Text
