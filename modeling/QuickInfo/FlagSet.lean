import QuickInfo.Enumeration

/-!
# Sets of flags

A set over an enumeration is its membership test. Union and difference act flag by flag, and a set
is written as a number by adding up the weights of its flags.
-/
namespace QuickInfo

/-- An enumeration in which every value stands for one bit. -/
class Flag (α : Type) extends Enumeration α where
  weight : α → Nat

/-- A set of flags. -/
@[ext] structure FlagSet (α : Type) where
  has : α → Bool

namespace FlagSet

variable {α : Type}

instance : EmptyCollection (FlagSet α) := ⟨⟨fun _ => false⟩⟩

instance : Union (FlagSet α) := ⟨fun s t => ⟨fun a => s.has a || t.has a⟩⟩

instance : SDiff (FlagSet α) := ⟨fun s t => ⟨fun a => s.has a && !t.has a⟩⟩

instance : Membership α (FlagSet α) := ⟨fun s a => s.has a = true⟩

instance : HasSubset (FlagSet α) := ⟨fun s t => ∀ a, a ∈ s → a ∈ t⟩

/-- The set of the listed flags. -/
def ofList [DecidableEq α] (l : List α) : FlagSet α := ⟨fun a => decide (a ∈ l)⟩

/-- Some flag is in both sets. -/
def Meets (s t : FlagSet α) : Prop := ∃ a, a ∈ s ∧ a ∈ t

@[simp] theorem has_empty (a : α) : (∅ : FlagSet α).has a = false := rfl

@[simp] theorem has_union (s t : FlagSet α) (a : α) : (s ∪ t).has a = (s.has a || t.has a) := rfl

@[simp] theorem has_sdiff (s t : FlagSet α) (a : α) : (s \ t).has a = (s.has a && !t.has a) := rfl

@[simp] theorem has_ofList [DecidableEq α] (l : List α) (a : α) :
    (ofList l).has a = decide (a ∈ l) := rfl

theorem mem_def {s : FlagSet α} {a : α} : a ∈ s ↔ s.has a = true := Iff.rfl

instance (s : FlagSet α) (a : α) : Decidable (a ∈ s) :=
  inferInstanceAs (Decidable (s.has a = true))

theorem subset_refl (s : FlagSet α) : s ⊆ s := fun _ h => h

theorem empty_subset (s : FlagSet α) : ∅ ⊆ s := fun _ h => nomatch h

theorem empty_union (s : FlagSet α) : ∅ ∪ s = s := by
  ext a
  rw [has_union, has_empty, Bool.false_or]

theorem union_empty (s : FlagSet α) : s ∪ ∅ = s := by
  ext a
  rw [has_union, has_empty, Bool.or_false]

theorem union_assoc (s t u : FlagSet α) : s ∪ t ∪ u = s ∪ (t ∪ u) := by
  ext a
  rw [has_union, has_union, has_union, has_union, Bool.or_assoc]

theorem mem_union_iff {s t : FlagSet α} {a : α} : a ∈ s ∪ t ↔ a ∈ s ∨ a ∈ t :=
  Bool.or_eq_true_iff

theorem union_subset_union {s t s' t' : FlagSet α} (h : s ⊆ t) (h' : s' ⊆ t') :
    s ∪ s' ⊆ t ∪ t' := by
  intro a ha
  simp only [mem_def, has_union, Bool.or_eq_true] at ha ⊢
  exact ha.imp (h a) (h' a)

theorem ofList_cons [DecidableEq α] (a : α) (l : List α) :
    ofList (a :: l) = ofList [a] ∪ ofList l := by
  ext b
  simp

section Listed

variable [Enumeration α]

/-- The flags of the set, in the order of the enumeration. -/
def toList (s : FlagSet α) : List α :=
  (Enumeration.all : List α).filter s.has

theorem mem_toList {s : FlagSet α} {a : α} : a ∈ s.toList ↔ a ∈ s := by
  simp [toList, mem_def, Enumeration.mem_all]

theorem toList_sublist {s t : FlagSet α} (h : s ⊆ t) : s.toList.Sublist t.toList := by
  have hs : s.toList = t.toList.filter s.has := by
    rw [toList, toList, List.filter_filter]
    refine List.filter_congr fun a _ => ?_
    cases ha : s.has a with
    | false => rfl
    | true => exact (h a ha).symm
  rw [hs]
  exact List.filter_sublist

theorem ext_toList {s t : FlagSet α} (h : s.toList = t.toList) : s = t := by
  ext a
  rw [Bool.eq_iff_iff, ← mem_def, ← mem_def, ← mem_toList, ← mem_toList, h]

theorem ofList_toList [DecidableEq α] (s : FlagSet α) : ofList s.toList = s := by
  ext a
  rw [has_ofList, Bool.eq_iff_iff, decide_eq_true_iff, mem_toList]
  rfl

theorem toList_eq_nil_iff {s : FlagSet α} : s.toList = [] ↔ s = ∅ := by
  constructor
  · intro h
    exact ext_toList (h.trans (by simp [toList]))
  · rintro rfl
    simp [toList]

instance : DecidableEq (FlagSet α) := fun s t =>
  decidable_of_iff (∀ a ∈ (Enumeration.all : List α), s.has a = t.has a)
    ⟨fun h => FlagSet.ext (funext fun a => h a (Enumeration.mem_all a)), fun h => by simp [h]⟩

instance (s t : FlagSet α) : Decidable (s ⊆ t) :=
  decidable_of_iff (∀ a ∈ (Enumeration.all : List α), a ∈ s → a ∈ t)
    ⟨fun h a => h a (Enumeration.mem_all a), fun h a _ => h a⟩

instance (s t : FlagSet α) : Decidable (s.Meets t) :=
  decidable_of_iff (∃ a ∈ (Enumeration.all : List α), a ∈ s ∧ a ∈ t)
    ⟨fun ⟨a, _, h⟩ => ⟨a, h⟩, fun ⟨a, h⟩ => ⟨a, Enumeration.mem_all a, h⟩⟩

end Listed

/-- The set as a number, the sum of its flags' weights. -/
def bits [Flag α] (s : FlagSet α) : Nat :=
  s.toList.foldr (fun a n => Flag.weight a + n) 0

end FlagSet

end QuickInfo
