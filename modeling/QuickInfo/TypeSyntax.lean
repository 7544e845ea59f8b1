import QuickInfo.Predefined
import QuickInfo.ResolvedType
import QuickInfo.Text.Segments

/-!
# Type syntax

Types as C# writes them, with their namespaces and enclosing types, or with short names that leave
the namespaces out.
-/
namespace QuickInfo

inductive TypeSyntax where
  | primitive (keyword : String)
  | simple (identifier : String) (arguments : List TypeSyntax)
  /-- A name after a namespace or an enclosing type. -/
  | member (target : TypeSyntax) (name : String) (arguments : List TypeSyntax)
  | array (element : TypeSyntax) (rank : Nat)
  | pointer (element : TypeSyntax)
  | nullable (element : TypeSyntax)

/-- Whether type names have their namespaces. -/
inductive Naming where
  | short
  | qualified
  deriving DecidableEq, Repr

namespace TypeSyntax

/-- A name, after a target if there is one. -/
def attach (target : Option TypeSyntax) (name : String) (arguments : List TypeSyntax) :
    TypeSyntax :=
  match target with
  | none => .simple name arguments
  | some t => .member t name arguments

/-- Names after a target, one after the other. -/
def path (target : Option TypeSyntax) (names : List String) : Option TypeSyntax :=
  names.foldl (fun t name => some (attach t name [])) target

/-- The namespace of a type, unless it is left out. -/
def ofNamespace? (naming : Naming) (ns : String) : Option TypeSyntax :=
  match naming with
  | .short => none
  | .qualified => if ns = "" then none else path none (Text.segments '.' ns)

/-- A type name without definition: its last segment has the arguments. -/
def ofUnknown (naming : Naming) (ns name : String) (arguments : List TypeSyntax) : TypeSyntax :=
  let names := Text.segments '.' name
  attach (path (ofNamespace? naming ns) names.dropLast) (names.getLastD "") arguments

/-- `System.Nullable` with one argument is written with a question mark after the argument. -/
def orNullable (ns name : String) (arguments : List TypeSyntax) (other : TypeSyntax) :
    TypeSyntax :=
  match arguments with
  | [t] => if ns = "System" ∧ name = "Nullable" then .nullable t else other
  | _ => other

/-- A type without enclosing type: a keyword, a nullable type or a name in its namespace. -/
def ofTopLevel (naming : Naming) (ns name : String) (arguments : List TypeSyntax) : TypeSyntax :=
  match arguments, Predefined.keyword? ns name with
  | [], some keyword => .primitive keyword
  | _, _ => orNullable ns name arguments (attach (ofNamespace? naming ns) name arguments)

mutual

/-- How a type is written. References to a variable are written as the type of the variable. -/
def ofType (naming : Naming) : ResolvedType → TypeSyntax
  | .definition (.topLevel ns name arguments) =>
    ofTopLevel naming ns name (ofTypes naming arguments)
  | .definition (.nested outer name arguments) =>
    let arguments := ofTypes naming arguments
    orNullable outer.rootNamespace name arguments
      (.member (ofDefinition naming outer) name arguments)
  | .unknown ns name arguments =>
    let arguments := ofTypes naming arguments
    orNullable ns name arguments (ofUnknown naming ns name arguments)
  | .typeParameter name => .simple name []
  | .array element rank => .array (ofType naming element) rank
  | .pointer element => .pointer (ofType naming element)
  | .byReference element => ofType naming element

/-- A type with a definition, always by name. -/
def ofDefinition (naming : Naming) : DefinitionType → TypeSyntax
  | .topLevel ns name arguments =>
    attach (ofNamespace? naming ns) name (ofTypes naming arguments)
  | .nested outer name arguments =>
    .member (ofDefinition naming outer) name (ofTypes naming arguments)

def ofTypes (naming : Naming) : List ResolvedType → List TypeSyntax
  | [] => []
  | t :: ts => ofType naming t :: ofTypes naming ts

end

theorem ofTypes_eq_map (naming : Naming) (ts : List ResolvedType) :
    ofTypes naming ts = ts.map (ofType naming) := by
  induction ts with
  | nil => rfl
  | cons t ts ih => simp [ofTypes, ih]

end TypeSyntax

end QuickInfo
