import QuickInfo.Decimal.Shortest
import QuickInfo.Json.Basic
import QuickInfo.Text.Quoted

/-!
# Mismatches

The ways in which a JSON value can have the wrong shape, and the sentences that report them.
-/
namespace QuickInfo.Json

/-- What a reader sees of a value: its kind, and the value itself if it is a scalar. -/
inductive Shape where
  | null
  | bool (b : Bool)
  | number (n : Number)
  | string (s : String)
  | sequence
  | map

inductive Mismatch where
  | missingField (name : String)
  | duplicateField (name : String)
  | unknownVariant (name : String) (expected : List String)
  | invalidType (found : Shape) (expected : String)
  | invalidValue (found : Shape) (expected : String)
  | invalidLength (length : Nat) (expected : String)

/-- Why a JSON document is not decoded: a value has the wrong shape, or the document is damaged. -/
inductive Failure (ε : Type) where
  | mismatch (m : Mismatch)
  | fault (e : ε)

/-- Floating-point numbers are positional from `0.00001` to below `10 ^ 16`. -/
def Number.realStyle : Decimal.Style := ⟨-5, 16, "e", "+"⟩

/-- The text between backquotes. -/
def backquoted (s : String) : String := "\x60" ++ s ++ "\x60"

namespace Shape

def message : Shape → String
  | .null => "null"
  | .bool b => "boolean " ++ backquoted (if b then "true" else "false")
  | .number (.integer n) => "integer " ++ backquoted (toString n)
  | .number (.real x) =>
    "floating point " ++ backquoted (Number.realStyle.text (Decimal.Binary64.ofBits x.toBits))
  | .string s => "string " ++ Text.quote s
  | .sequence => "sequence"
  | .map => "map"

end Shape

namespace Mismatch

/-- The names that are allowed. -/
def oneOf : List String → String
  | [] => "there are no variants"
  | [a] => backquoted a
  | [a, b] => backquoted a ++ " or " ++ backquoted b
  | names => "one of " ++ ", ".intercalate (names.map backquoted)

def message : Mismatch → String
  | .missingField name => "missing field " ++ backquoted name
  | .duplicateField name => "duplicate field " ++ backquoted name
  | .unknownVariant name expected =>
    "unknown variant " ++ backquoted name ++ ", expected " ++ oneOf expected
  | .invalidType found expected => "invalid type: " ++ found.message ++ ", expected " ++ expected
  | .invalidValue found expected => "invalid value: " ++ found.message ++ ", expected " ++ expected
  | .invalidLength length expected =>
    "invalid length " ++ toString length ++ ", expected " ++ expected

end Mismatch

end QuickInfo.Json
