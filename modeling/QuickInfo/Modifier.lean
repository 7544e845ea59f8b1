import QuickInfo.Entity
import QuickInfo.FlagSet

/-!
# Modifiers

The modifier words of a declaration. A set of them is always written in the one order of
`Modifier.all`.
-/
namespace QuickInfo

/-- The words for who may use a declaration. -/
inductive AccessWord where
  | publicAccess
  | protectedAccess
  | privateAccess
  | internalAccess
  deriving DecidableEq, Repr

/-- A modifier word. -/
inductive Modifier where
  | access (w : AccessWord)
  | entity (m : EntityModifier)
  deriving DecidableEq, Repr

namespace Modifier

def all : List Modifier :=
  [access .publicAccess, access .protectedAccess, access .privateAccess, access .internalAccess,
   entity .new, entity .unsafeContext, entity .abstract, entity .virtual, entity .sealed,
   entity .static, entity .override, entity .readonly, entity .volatile, entity .external,
   entity .partialDefinition, entity .const, entity .fixed]

def keyword : Modifier → String
  | access .publicAccess => "public"
  | access .protectedAccess => "protected"
  | access .privateAccess => "private"
  | access .internalAccess => "internal"
  | entity m => Enumeration.name m

def weight : Modifier → Nat
  | access .privateAccess => 0x1
  | access .internalAccess => 0x2
  | access .protectedAccess => 0x4
  | access .publicAccess => 0x8
  | entity .abstract => 0x10
  | entity .virtual => 0x20
  | entity .sealed => 0x40
  | entity .static => 0x80
  | entity .override => 0x100
  | entity .readonly => 0x200
  | entity .const => 0x400
  | entity .new => 0x800
  | entity .partialDefinition => 0x1000
  | entity .external => 0x2000
  | entity .volatile => 0x4000
  | entity .unsafeContext => 0x8000
  | entity .fixed => 0x10000

instance : Flag Modifier where
  all := all
  mem_all a := by
    cases a with
    | access w => cases w <;> decide
    | entity m => cases m <;> decide
  name := keyword
  weight := weight

end Modifier

abbrev Modifiers := FlagSet Modifier

namespace Modifiers

/-- The words for who may use the declaration. -/
def visibility : Modifiers := ⟨fun
  | .access _ => true
  | .entity _ => false⟩

def ofAccessibility : Accessibility → Modifiers
  | .unspecified => ∅
  | .privateAccess => .ofList [.access .privateAccess]
  | .publicAccess => .ofList [.access .publicAccess]
  | .protectedAccess => .ofList [.access .protectedAccess]
  | .internalAccess => .ofList [.access .internalAccess]
  | .protectedOrInternal => .ofList [.access .protectedAccess, .access .internalAccess]

/-- The words in their order. -/
def keywords (s : Modifiers) : List String := s.toList.map Modifier.keyword

/-- The words in their order, each with a space after it. -/
def text (s : Modifiers) : String := String.join (s.keywords.map (· ++ " "))

end Modifiers

end QuickInfo
