import Mathlib.Data.List.Induction
import Mathlib.Data.List.TakeWhile
import QuickInfo.Text.Blank

/-!
# Where trimming stops

Trimming at the end takes away characters of a class. It does not go beyond a part that ends outside
the class, whatever comes behind it. Trimming at both ends leaves what is between the outer blanks.
-/
namespace QuickInfo.Text

/-- The text is empty or its last character is not in the class. -/
def EndsOutside (p : Char → Bool) (s : String) : Prop := ∀ c ∈ s.toList.getLast?, p c = false

instance (p : Char → Bool) (s : String) : Decidable (EndsOutside p s) :=
  match h : s.toList.getLast? with
  | none => isTrue fun c hc => by simp [h] at hc
  | some d => decidable_of_iff (p d = false) (by simp [EndsOutside, h])

variable {p : Char → Bool} {s t : String}

theorem EndsOutside.append (hs : EndsOutside p s) (ht : EndsOutside p t) :
    EndsOutside p (s ++ t) := by
  intro c hc
  rw [String.toList_append, List.getLast?_append] at hc
  cases hlast : t.toList.getLast? with
  | none =>
    rw [hlast] at hc
    exact hs c hc
  | some d =>
    rw [hlast] at hc
    exact ht c (hlast ▸ hc)

/-- Only the last part of a text counts, if it is not empty. -/
theorem EndsOutside.append_left (ht : EndsOutside p t) (hne : t ≠ "") (s : String) :
    EndsOutside p (s ++ t) := by
  intro c hc
  have hlist : t.toList ≠ [] := fun h => hne (String.toList_eq_nil_iff.1 h)
  rw [String.toList_append, List.getLast?_append, List.getLast?_eq_some_getLast hlist] at hc
  exact ht c (by rwa [List.getLast?_eq_some_getLast hlist])

theorem dropEndWhile_append {cs : List Char} (h : ∀ c ∈ cs.getLast?, p c = false)
    (ds : List Char) : dropEndWhile p (cs ++ ds) = cs ++ dropEndWhile p ds := by
  induction ds using List.reverseRecOn with
  | nil =>
    rw [dropEndWhile_nil, List.append_nil]
    rcases cs.eq_nil_or_concat with rfl | ⟨front, last, rfl⟩
    · rfl
    · have hlast : p last = false := h last (by simp)
      rw [List.concat_eq_append, dropEndWhile_append_singleton, hlast, if_neg Bool.false_ne_true]
  | append_singleton ds d ih =>
    rw [← List.append_assoc, dropEndWhile_append_singleton, dropEndWhile_append_singleton, ih]
    split
    · rfl
    · rw [List.append_assoc]

/-- Trimming stops where a part ends outside the class. -/
theorem trimEndOf_append (hs : EndsOutside p s) (t : String) :
    trimEndOf p (s ++ t) = s ++ trimEndOf p t := by
  rw [trimEndOf, trimEndOf, String.toList_append, dropEndWhile_append hs, String.ofList_append,
    String.ofList_toList]

theorem trimEndOf_eq_self (hs : EndsOutside p s) : trimEndOf p s = s := by
  have h := trimEndOf_append hs ""
  rwa [String.append_empty, show trimEndOf p "" = "" from rfl, String.append_empty] at h

theorem trimEnd_append (hs : EndsOutside isBlank s) (t : String) :
    trimEnd (s ++ t) = s ++ trimEnd t :=
  trimEndOf_append hs t

theorem trimEnd_eq_self (hs : EndsOutside isBlank s) : trimEnd s = s :=
  trimEndOf_eq_self hs

/-- What is left without the blanks around it. -/
theorem trim_append_append {left word right : List Char} (hleft : ∀ c ∈ left, isBlank c = true)
    (hright : ∀ c ∈ right, isBlank c = true) (hfirst : ∀ c ∈ word.head?, isBlank c = false)
    (hlast : ∀ c ∈ word.getLast?, isBlank c = false) : trim (left ++ word ++ right) = word := by
  rw [trim, List.append_assoc, List.dropWhile_append_of_pos hleft]
  cases word with
  | nil =>
    rw [List.nil_append, List.dropWhile_eq_nil_iff.2 hright]
    rfl
  | cons c word =>
    have hstop : (c :: word ++ right).dropWhile isBlank = c :: word ++ right := by
      apply List.dropWhile_cons_of_neg
      rw [hfirst c rfl]
      exact Bool.false_ne_true
    have hblanks : dropEndWhile isBlank right = [] := by
      rw [dropEndWhile, List.dropWhile_eq_nil_iff.2 fun d hd => hright d (List.mem_reverse.1 hd)]
      rfl
    rw [hstop, dropEndWhile_append hlast, hblanks, List.append_nil]

/-- Blanks are around what is left, which neither begins nor ends with one. -/
theorem exists_append_trim (cs : List Char) :
    ∃ left right : List Char, cs = left ++ trim cs ++ right ∧ (∀ c ∈ left, isBlank c = true) ∧
      (∀ c ∈ right, isBlank c = true) ∧ (∀ c ∈ (trim cs).head?, isBlank c = false) ∧
      ∀ c ∈ (trim cs).getLast?, isBlank c = false := by
  obtain ⟨right, happend, hright⟩ := exists_append_dropEndWhile isBlank (cs.dropWhile isBlank)
  have hcut : cs = cs.takeWhile isBlank ++ trim cs ++ right := by
    rw [trim, List.append_assoc, happend, List.takeWhile_append_dropWhile]
  refine ⟨cs.takeWhile isBlank, right, hcut, List.all_eq_true.1 List.all_takeWhile, hright, ?_, ?_⟩
  · intro c hc
    have hhead : (cs.dropWhile isBlank).head? = some c := by
      rw [← happend, ← trim, List.head?_append, Option.mem_def.1 hc]
      rfl
    have hplain := List.head?_dropWhile_not isBlank cs
    rwa [hhead] at hplain
  · intro c hc
    rw [trim, dropEndWhile, List.getLast?_reverse] at hc
    have hplain := List.head?_dropWhile_not isBlank (cs.dropWhile isBlank).reverse
    rwa [Option.mem_def.1 hc] at hplain

end QuickInfo.Text
