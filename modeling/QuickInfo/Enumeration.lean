/-!
# Enumerations

Finite types whose values come in a fixed order and are written by name.
-/
namespace QuickInfo

/-- A type whose values are all listed, in the order in which they are presented, and named. -/
class Enumeration (α : Type) where
  all : List α
  mem_all : ∀ a, a ∈ all
  name : α → String

namespace Enumeration

variable {α : Type} [Enumeration α]

/-- The names of all values, in order. -/
def names (α : Type) [Enumeration α] : List String :=
  (all : List α).map name

/-- The first value with the given name. -/
def ofName? (s : String) : Option α :=
  (all : List α).find? fun a => name a == s

theorem name_of_ofName? {s : String} {a : α} (h : ofName? s = some a) : name a = s := by
  simpa using List.find?_some h

theorem ofName?_isSome_iff {s : String} : (ofName? s : Option α).isSome ↔ s ∈ names α := by
  simp [ofName?, names]

end Enumeration

end QuickInfo
