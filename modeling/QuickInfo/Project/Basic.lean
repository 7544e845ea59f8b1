import QuickInfo.Project.Document
import QuickInfo.QualifiedName

/-!
# Projects

The type definitions of a project, at the positions that are their identifiers, and an index of
their names. Definitions refer to each other by identifier.
-/
namespace QuickInfo

structure Member extends MemberDocument where
  id : MemberId

structure TypeDefinition extends TypeHeader where
  id : TypeId
  ns : String
  declaringType : Option TypeId
  nestedTypes : List TypeId
  members : List Member

/-- What a type is found by: its written qualified name and the number of its type parameters. -/
structure TypeKey where
  name : String
  arity : Nat
  deriving DecidableEq, Repr

structure Project where
  types : Array TypeDefinition
  index : List (TypeKey × TypeId)

namespace Project

def empty : Project := ⟨#[], []⟩

instance : EmptyCollection Project := ⟨empty⟩

/-- The number of type definitions. -/
def size (p : Project) : Nat := p.types.size

def definition? (p : Project) (id : TypeId) : Option TypeDefinition := p.types[id.index]?

def member? (p : Project) (id : MemberId) : Option Member := do
  (← p.definition? id.declaringType).members[id.index]?

/-- The type with the given name and number of type parameters. -/
def find? (p : Project) (key : TypeKey) : Option TypeId := p.index.lookup key

/-- The types that no other type encloses. -/
def topLevel (p : Project) : List TypeDefinition :=
  p.types.toList.filter fun d => d.declaringType.isNone

/-- Follows the links to enclosing types, `fuel` of them at most: the definitions on the way, or
the link that leads nowhere. -/
def outward (p : Project) : Nat → Option TypeId → Except TypeId (List TypeDefinition)
  | _, none => .ok []
  | 0, some id => .error id
  | fuel + 1, some id =>
    match p.definition? id with
    | none => .error id
    | some d => (d :: ·) <$> p.outward fuel d.declaringType

/-- The types that enclose a type, the innermost first. -/
def enclosing (p : Project) (d : TypeDefinition) : Except TypeId (List TypeDefinition) :=
  p.outward p.size d.declaringType

/-- The namespace of the outermost enclosing type and the names from it to the type. -/
def qualifiedName (p : Project) (d : TypeDefinition) : QualifiedName :=
  match p.enclosing d with
  | .ok outers => ⟨d.ns, (outers.reverse.map fun o => o.name) ++ [d.name]⟩
  | .error _ => ⟨d.ns, [d.name]⟩

/-- The qualified name as references write it. -/
def reflectionName (p : Project) (d : TypeDefinition) : String := (p.qualifiedName d).text

def key (p : Project) (d : TypeDefinition) : TypeKey :=
  ⟨p.reflectionName d, d.arity⟩

@[simp] theorem size_empty : (∅ : Project).size = 0 := rfl

@[simp] theorem definition?_empty (id : TypeId) : (∅ : Project).definition? id = none := rfl

@[simp] theorem find?_empty (key : TypeKey) : (∅ : Project).find? key = none := rfl

theorem definition?_isSome_iff {p : Project} {id : TypeId} :
    (p.definition? id).isSome ↔ id.index < p.size := by
  simp [definition?, size]

/-- A type without enclosing type is named by its namespace and its own name. -/
theorem qualifiedName_of_topLevel (p : Project) {d : TypeDefinition} (h : d.declaringType = none) :
    p.qualifiedName d = ⟨d.ns, [d.name]⟩ := by
  have he : p.enclosing d = .ok [] := by
    rw [enclosing, h]
    cases p.size <;> rfl
  simp [qualifiedName, he]

end Project

end QuickInfo
