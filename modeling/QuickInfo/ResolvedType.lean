/-!
# Resolved types

Types after they were looked up. They carry all names that are needed to write them.
-/
namespace QuickInfo

mutual

inductive ResolvedType where
  | definition (d : DefinitionType)
  /-- A type that is not known, as it was named: the names of enclosing types are part of `name`,
  with dots after them. -/
  | unknown (ns name : String) (arguments : List ResolvedType)
  | typeParameter (name : String)
  | array (element : ResolvedType) (rank : Nat)
  | pointer (element : ResolvedType)
  | byReference (element : ResolvedType)

/-- A type with a definition, in its namespace or in the type that encloses it. -/
inductive DefinitionType where
  | topLevel (ns name : String) (arguments : List ResolvedType)
  | nested (outer : DefinitionType) (name : String) (arguments : List ResolvedType)

end

namespace DefinitionType

def name : DefinitionType → String
  | topLevel _ name _ => name
  | nested _ name _ => name

def arguments : DefinitionType → List ResolvedType
  | topLevel _ _ arguments => arguments
  | nested _ _ arguments => arguments

def outer? : DefinitionType → Option DefinitionType
  | topLevel _ _ _ => none
  | nested outer _ _ => some outer

/-- The namespace of the outermost enclosing type. -/
def rootNamespace : DefinitionType → String
  | topLevel ns _ _ => ns
  | nested outer _ _ => outer.rootNamespace

/-- The type with other arguments. -/
def withArguments (arguments : List ResolvedType) : DefinitionType → DefinitionType
  | topLevel ns name _ => topLevel ns name arguments
  | nested outer name _ => nested outer name arguments

end DefinitionType

namespace ResolvedType

/-- A type of the namespace `System` without arguments. -/
def system (name : String) : ResolvedType :=
  .definition (.topLevel "System" name [])

end ResolvedType

end QuickInfo
