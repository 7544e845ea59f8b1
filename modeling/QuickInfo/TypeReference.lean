import QuickInfo.Entity

/-!
# Type references

Types as a snapshot names them, before they are looked up in a project.
-/
namespace QuickInfo

/-- A reference to a type. A named type is given by its qualified name, `Acme.Outer+Inner` for a
type that is nested in another. -/
inductive TypeReference where
  | named (name : String) (arguments : List TypeReference)
  | typeParameter (name : String)
  | array (element : TypeReference) (rank : Nat)
  | pointer (element : TypeReference)
  | byReference (element : TypeReference)

namespace TypeReference

/-- The type of a member that gives no result. -/
def void : TypeReference := .named "System.Void" []

end TypeReference

/-- A parameter of a member. -/
structure Parameter where
  name : String
  type : TypeReference
  modifier : Option ParameterModifier

end QuickInfo
