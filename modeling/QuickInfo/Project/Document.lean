import QuickInfo.TypeReference

/-!
# Documents

Types and members as a snapshot describes them. The values that a document leaves out are the
defaults of the fields here.
-/
namespace QuickInfo

structure MemberDocument where
  kind : MemberKind
  name : String
  accessibility : Accessibility := .unspecified
  modifiers : List EntityModifier := []
  returnType : TypeReference := .void
  parameters : List Parameter := []
  typeParameters : List TypeParameter := []

/-- What a type document and a type definition have in common. -/
structure TypeHeader where
  kind : TypeKind
  name : String
  accessibility : Accessibility := .unspecified
  modifiers : List EntityModifier := []
  typeParameters : List TypeParameter := []

namespace TypeHeader

def arity (h : TypeHeader) : Nat := h.typeParameters.length

end TypeHeader

/-- A type with the types nested in it. The namespace counts only if the type itself is not
nested. -/
structure TypeDocument extends TypeHeader where
  ns : String := ""
  members : List MemberDocument := []
  nestedTypes : List TypeDocument := []

/-- A snapshot of a project. -/
structure AssemblyDocument where
  name : Option String := none
  types : List TypeDocument

end QuickInfo
