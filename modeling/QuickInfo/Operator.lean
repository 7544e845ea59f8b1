import QuickInfo.Enumeration

/-!
# Operators

The operators that a type can define, with the identifiers of their members and their tokens.
-/
namespace QuickInfo

inductive Operator where
  | logicalNot
  | onesComplement
  | increment
  | decrement
  | isTrue
  | isFalse
  | unaryPlus
  | unaryNegation
  | addition
  | subtraction
  | multiply
  | division
  | modulus
  | bitwiseAnd
  | bitwiseOr
  | exclusiveOr
  | leftShift
  | rightShift
  | equality
  | inequality
  | greaterThan
  | lessThan
  | greaterThanOrEqual
  | lessThanOrEqual
  | implicit
  | explicit
  deriving DecidableEq, Repr

namespace Operator

def name : Operator → String
  | logicalNot => "LogicalNot"
  | onesComplement => "OnesComplement"
  | increment => "Increment"
  | decrement => "Decrement"
  | isTrue => "True"
  | isFalse => "False"
  | unaryPlus => "UnaryPlus"
  | unaryNegation => "UnaryNegation"
  | addition => "Addition"
  | subtraction => "Subtraction"
  | multiply => "Multiply"
  | division => "Division"
  | modulus => "Modulus"
  | bitwiseAnd => "BitwiseAnd"
  | bitwiseOr => "BitwiseOr"
  | exclusiveOr => "ExclusiveOr"
  | leftShift => "LeftShift"
  | rightShift => "RightShift"
  | equality => "Equality"
  | inequality => "Inequality"
  | greaterThan => "GreaterThan"
  | lessThan => "LessThan"
  | greaterThanOrEqual => "GreaterThanOrEqual"
  | lessThanOrEqual => "LessThanOrEqual"
  | implicit => "Implicit"
  | explicit => "Explicit"

/-- The name of a member that defines the operator. -/
def identifier (o : Operator) : String := "op_" ++ o.name

def token : Operator → String
  | logicalNot => "!"
  | onesComplement => "~"
  | increment => "++"
  | decrement => "--"
  | isTrue => "true"
  | isFalse => "false"
  | unaryPlus => "+"
  | unaryNegation => "-"
  | addition => "+"
  | subtraction => "-"
  | multiply => "*"
  | division => "/"
  | modulus => "%"
  | bitwiseAnd => "&"
  | bitwiseOr => "|"
  | exclusiveOr => "^"
  | leftShift => "<<"
  | rightShift => ">>"
  | equality => "=="
  | inequality => "!="
  | greaterThan => ">"
  | lessThan => "<"
  | greaterThanOrEqual => ">="
  | lessThanOrEqual => "<="
  | implicit => "implicit"
  | explicit => "explicit"

instance : Enumeration Operator where
  all := [logicalNot, onesComplement, increment, decrement, isTrue, isFalse, unaryPlus,
    unaryNegation, addition, subtraction, multiply, division, modulus, bitwiseAnd, bitwiseOr,
    exclusiveOr, leftShift, rightShift, equality, inequality, greaterThan, lessThan,
    greaterThanOrEqual, lessThanOrEqual, implicit, explicit]
  mem_all a := by cases a <;> decide
  name := identifier

/-- The operator that a member with the given name defines. -/
def ofIdentifier? (s : String) : Option Operator := Enumeration.ofName? s

/-- Conversions are written without a return type; the type that they convert to follows the word
`operator`. -/
def isConversion : Operator → Bool
  | implicit | explicit => true
  | _ => false

theorem ofIdentifier?_identifier (o : Operator) : ofIdentifier? o.identifier = some o := by
  cases o <;> decide

theorem ofIdentifier?_eq_some_iff {s : String} {o : Operator} :
    ofIdentifier? s = some o ↔ s = o.identifier := by
  constructor
  · intro h
    exact (Enumeration.name_of_ofName? h).symm
  · rintro rfl
    exact ofIdentifier?_identifier o

end Operator

end QuickInfo
