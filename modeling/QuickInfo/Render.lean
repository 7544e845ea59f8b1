import QuickInfo.Declaration.Basic

/-!
# Rendering

The text of declaration syntax under a choice of spacing.
-/
namespace QuickInfo

/-- Where spaces and line ends stand. -/
structure Spacing where
  afterTypeArgumentComma : Bool := true
  afterArrayRankComma : Bool := false
  aroundAssignment : Bool := true
  newline : String := "\n"
  deriving DecidableEq, Repr

namespace Spacing

/-- The spacing of declaration texts. -/
def standard : Spacing := {}

variable (o : Spacing)

def typeArgumentSeparator : String := if o.afterTypeArgumentComma then ", " else ","

def arrayRankSeparator : String := if o.afterArrayRankComma then ", " else ","

def assignment : String := if o.aroundAssignment then " = " else "="

/-- The brackets around type arguments or parameters, if there are any. -/
def typeList (texts : List String) : String :=
  match texts with
  | [] => ""
  | texts => "<" ++ o.typeArgumentSeparator.intercalate texts ++ ">"

/-- The brackets of an array, with one comma less than it has dimensions. -/
def arrayRank (rank : Nat) : String :=
  "[" ++ String.join (List.replicate (rank - 1) o.arrayRankSeparator) ++ "]"

mutual

def type : TypeSyntax → String
  | .primitive keyword => keyword
  | .simple identifier arguments => identifier ++ o.typeList (types arguments)
  | .member target name arguments => type target ++ "." ++ name ++ o.typeList (types arguments)
  | .array element rank => type element ++ o.arrayRank rank
  | .pointer element => type element ++ "*"
  | .nullable element => type element ++ "?"

def types : List TypeSyntax → List String
  | [] => []
  | t :: ts => type t :: types ts

end

theorem types_eq_map (ts : List TypeSyntax) : o.types ts = ts.map o.type := by
  induction ts with
  | nil => rfl
  | cons t ts ih => simp [types, ih]

end Spacing

/-- The word before a type parameter. -/
def Variance.text : Variance → String
  | .invariant => ""
  | .covariant => "out "
  | .contravariant => "in "

/-- The word before a parameter. -/
def ParameterModifier.text (m : Option ParameterModifier) : String :=
  match m with
  | none => ""
  | some m => Enumeration.name m ++ " "

def TypeParameter.text (t : TypeParameter) : String := t.variance.text ++ t.name

/-- Texts with a comma and a space between them. -/
def commaSeparated (texts : List String) : String := ", ".intercalate texts

namespace Spacing

variable (o : Spacing)

def typeParameters (ts : List TypeParameter) : String :=
  o.typeList (ts.map TypeParameter.text)

def parameter (a : ParameterDeclaration) : String :=
  ParameterModifier.text a.modifier ++ o.type a.type ++
    match a.name with
    | none => ""
    | some name => " " ++ name

def parameters (as : List ParameterDeclaration) : String :=
  commaSeparated (as.map o.parameter)

def statement (s : VariableStatement) : String :=
  s.modifiers.text ++ o.type s.type ++ " " ++ s.name ++
    (match s.initializer with
      | none => ""
      | some value => o.assignment ++ value.text) ++
    ";" ++ o.newline

def variableDeclaration : VariableDeclaration → String
  | .statement s => o.statement s
  | .parameter a => o.parameter a

end Spacing

end QuickInfo
