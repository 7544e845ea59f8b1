import QuickInfo.Predefined
import QuickInfo.Project.Basic
import QuickInfo.ResolvedType

/-!
# Resolution

References are looked up in a project by name and number of arguments. A name that is not found
there may be that of a predefined type; otherwise it stays as it is written.
-/
namespace QuickInfo

/-- The type parameters of a type as arguments. -/
def TypeHeader.ownArguments (h : TypeHeader) : List ResolvedType :=
  h.typeParameters.map fun t => .typeParameter t.name

namespace Project

/-- The type inside enclosing types, which are given from the innermost, all with their own type
parameters as arguments. -/
def nestIn (d : TypeDefinition) : List TypeDefinition → DefinitionType
  | [] => .topLevel d.ns d.name d.ownArguments
  | o :: outers => .nested (nestIn o outers) d.name d.ownArguments

/-- The type that a definition declares. -/
def definitionType? (p : Project) (id : TypeId) : Option DefinitionType := do
  let d ← p.definition? id
  match p.enclosing d with
  | .ok outers => some (nestIn d outers)
  | .error _ => none

/-- A named type with resolved arguments. -/
def resolveNamed (p : Project) (name : String) (arguments : List ResolvedType) : ResolvedType :=
  match p.find? ⟨name, arguments.length⟩ |>.bind p.definitionType? with
  | some d => .definition (d.withArguments arguments)
  | none =>
    let q := QualifiedName.ofText name
    match arguments, q.path with
    | [], [simple] =>
      if (Predefined.keyword? q.ns simple).isSome then .system simple
      else .unknown q.ns simple []
    | arguments, path => .unknown q.ns (".".intercalate path) arguments

mutual

def resolve (p : Project) : TypeReference → ResolvedType
  | .named name arguments => p.resolveNamed name (p.resolveAll arguments)
  | .typeParameter name => .typeParameter name
  | .array element rank => .array (p.resolve element) rank
  | .pointer element => .pointer (p.resolve element)
  | .byReference element => .byReference (p.resolve element)

def resolveAll (p : Project) : List TypeReference → List ResolvedType
  | [] => []
  | r :: rs => p.resolve r :: p.resolveAll rs

end

theorem resolveAll_eq_map (p : Project) (rs : List TypeReference) :
    p.resolveAll rs = rs.map p.resolve := by
  induction rs with
  | nil => rfl
  | cons r rs ih => simp [resolveAll, ih]

end Project

end QuickInfo
