import QuickInfo.Project.Basic

/-!
# Changes

Operations on a project that may be refused on the way. What they did before the refusal stays done.
-/
namespace QuickInfo

/-- A change of a project that answers a value or is refused. -/
abbrev Change (ε α : Type) := ExceptT ε (StateM Project) α

namespace Project

/-- Makes a change: its answer, and the project as it is left. -/
def perform {ε α : Type} (p : Project) (c : Change ε α) : Except ε α × Project :=
  StateT.run (ExceptT.run c) p

variable {ε α β : Type} (p : Project)

@[simp] theorem perform_pure (a : α) : p.perform (pure a : Change ε α) = (.ok a, p) := rfl

@[simp] theorem perform_get : p.perform (get : Change ε Project) = (.ok p, p) := rfl

@[simp] theorem perform_set (q : Project) :
    p.perform (set q : Change ε PUnit) = (.ok (), q) := rfl

@[simp] theorem perform_ofExcept (x : Except ε α) :
    p.perform (ofExcept x : Change ε α) = (x, p) := by
  cases x <;> rfl

theorem perform_bind (c : Change ε α) (k : α → Change ε β) :
    p.perform (c >>= k) =
      match p.perform c with
      | (.ok a, q) => q.perform (k a)
      | (.error e, q) => (.error e, q) := by
  simp only [perform, ExceptT.run_bind, StateT.run_bind]
  rcases StateT.run (ExceptT.run c) p with ⟨_ | _, q⟩ <;> rfl

end Project

end QuickInfo
