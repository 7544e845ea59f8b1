import QuickInfo.Constant
import QuickInfo.Modifier
import QuickInfo.TypeSyntax

/-!
# Declarations

The syntax of declarations: types, members, parameters and variables.
-/
namespace QuickInfo

/-- The kinds of type that have a header. -/
inductive HeaderKind where
  | classType
  | structType
  | interfaceType
  | enumType
  | moduleType
  deriving DecidableEq, Repr

/-- The kind of a type's header. A delegate has none. -/
def TypeKind.header? : TypeKind → Option HeaderKind
  | .classType => some .classType
  | .structType => some .structType
  | .interfaceType => some .interfaceType
  | .enumType => some .enumType
  | .moduleType => some .moduleType
  | .delegateType => none

namespace HeaderKind

/-- The word before the name. There is none for modules. -/
def keyword? : HeaderKind → Option String
  | classType => some "class"
  | structType => some "struct"
  | interfaceType => some "interface"
  | enumType => some "enum"
  | moduleType => none

end HeaderKind

structure TypeDeclaration where
  modifiers : Modifiers
  kind : HeaderKind
  name : String
  typeParameters : List TypeParameter

/-- A parameter; the name may be left out. -/
structure ParameterDeclaration where
  modifier : Option ParameterModifier
  type : TypeSyntax
  name : Option String

/-- A member. Constructors, destructors and conversions have no return type. -/
structure MemberDeclaration where
  kind : MemberKind
  modifiers : Modifiers
  returnType : Option TypeSyntax
  name : String
  typeParameters : List TypeParameter
  parameters : List ParameterDeclaration

namespace MemberDeclaration

def isIndexer (d : MemberDeclaration) : Bool := d.kind = .indexer

end MemberDeclaration

/-- The statement that declares a local variable or a constant. -/
structure VariableStatement where
  modifiers : Modifiers
  type : TypeSyntax
  name : String
  initializer : Option Constant

inductive VariableDeclaration where
  | statement (s : VariableStatement)
  | parameter (p : ParameterDeclaration)

end QuickInfo
