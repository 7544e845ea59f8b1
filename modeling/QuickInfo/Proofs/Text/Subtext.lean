import QuickInfo.Text.Blank

/-!
# Subtexts

A subtext of a text is what is left of it after characters were deleted. Putting texts together and
trimming them at the end keep the relation.
-/
namespace QuickInfo.Text

/-- The characters of the one text occur in the other in their order. -/
def Subtext (s t : String) : Prop := s.toList.Sublist t.toList

instance (s t : String) : Decidable (Subtext s t) :=
  inferInstanceAs (Decidable (s.toList.Sublist t.toList))

namespace Subtext

variable {s t s' t' : String}

@[refl] theorem refl (s : String) : Subtext s s := List.Sublist.refl _

theorem trans {u : String} (h : Subtext s t) (h' : Subtext t u) : Subtext s u :=
  List.Sublist.trans h h'

theorem empty (t : String) : Subtext "" t := List.nil_sublist _

theorem append (h : Subtext s t) (h' : Subtext s' t') : Subtext (s ++ s') (t ++ t') := by
  simpa only [Subtext, String.toList_append] using List.Sublist.append h h'

/-- More text before a text leaves it a subtext. -/
theorem append_left (u : String) (h : Subtext s t) : Subtext s (u ++ t) := by
  simpa only [String.empty_append] using (empty u).append h

theorem join_map {α : Type} {l : List α} {f g : α → String} (h : ∀ a ∈ l, Subtext (f a) (g a)) :
    Subtext (String.join (l.map f)) (String.join (l.map g)) := by
  induction l with
  | nil => exact refl _
  | cons a l ih =>
    obtain ⟨ha, hl⟩ := List.forall_mem_cons.1 h
    rw [List.map_cons, List.map_cons, String.join_cons, String.join_cons]
    exact ha.append (ih hl)

theorem join_of_sublist {l l' : List String} (h : l.Sublist l') :
    Subtext (String.join l) (String.join l') := by
  induction h with
  | slnil => exact refl _
  | cons a _ ih =>
    rw [String.join_cons]
    exact ih.append_left a
  | cons_cons a _ ih =>
    rw [String.join_cons, String.join_cons]
    exact (refl a).append ih

theorem intercalate_map {α : Type} (sep : String) {l : List α} {f g : α → String}
    (h : ∀ a ∈ l, Subtext (f a) (g a)) :
    Subtext (sep.intercalate (l.map f)) (sep.intercalate (l.map g)) := by
  induction l with
  | nil => exact refl _
  | cons a l ih =>
    obtain ⟨ha, hl⟩ := List.forall_mem_cons.1 h
    cases l with
    | nil => simpa using ha
    | cons b l =>
      simp only [List.map_cons, String.intercalate_cons_cons]
      exact (ha.append (refl sep)).append (ih hl)

end Subtext

/-- Where the smaller list has its first element outside the class, the larger one still has it. -/
theorem dropWhile_sublist_dropWhile (p : Char → Bool) {cs ds : List Char} (h : cs.Sublist ds) :
    (cs.dropWhile p).Sublist (ds.dropWhile p) := by
  induction h with
  | slnil => exact List.Sublist.refl _
  | @cons cs ds c h ih =>
    by_cases hc : p c
    · rwa [List.dropWhile_cons_of_pos hc]
    · rw [List.dropWhile_cons_of_neg hc]
      exact ((List.dropWhile_sublist p).trans h).cons c
  | cons_cons c h ih =>
    by_cases hc : p c
    · rwa [List.dropWhile_cons_of_pos hc, List.dropWhile_cons_of_pos hc]
    · rw [List.dropWhile_cons_of_neg hc, List.dropWhile_cons_of_neg hc]
      exact h.cons_cons c

theorem dropEndWhile_sublist_dropEndWhile (p : Char → Bool) {cs ds : List Char}
    (h : cs.Sublist ds) : (dropEndWhile p cs).Sublist (dropEndWhile p ds) :=
  (dropWhile_sublist_dropWhile p h.reverse).reverse

theorem Subtext.trimEndOf (p : Char → Bool) {s t : String} (h : Subtext s t) :
    Subtext (trimEndOf p s) (trimEndOf p t) := by
  simpa only [Subtext, Text.trimEndOf, String.toList_ofList] using
    dropEndWhile_sublist_dropEndWhile p h

theorem Subtext.trimEnd {s t : String} (h : Subtext s t) : Subtext (trimEnd s) (trimEnd t) :=
  h.trimEndOf isBlank

end QuickInfo.Text
