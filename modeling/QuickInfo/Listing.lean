import QuickInfo.Header

/-!
# Listings

All entities of a project in the order of its nesting, one declaration text a line. A listing for a
wanted name has only the entities of that name, without indentation.
-/
namespace QuickInfo

/-- An entity in the order of a listing, with its simple name, its name with dots, and how many
types enclose it. -/
structure Listing.Entry where
  entity : Entity
  name : String
  dotted : String
  depth : Nat
  deriving DecidableEq, Repr

/-- Why there is no listing: an entity has no declaration text. -/
structure Listing.Error where
  dotted : String
  cause : DeclarationError
  deriving DecidableEq, Repr

namespace Listing

def Error.context (e : Error) : String := "failed to convert " ++ e.dotted

def Error.message (e : Error) : String := e.context ++ ": " ++ e.cause.message

/-- A type and its members. -/
def ownEntries (p : Project) (depth : Nat) (d : TypeDefinition) : List Entry :=
  let dotted := (p.qualifiedName d).dotted
  { entity := .type d.id, name := d.name, dotted := dotted, depth := depth } ::
    d.members.map fun m =>
      { entity := .member m.id, name := m.name, dotted := dotted ++ "." ++ m.name,
        depth := depth + 1 }

/-- A type, its members and its nested types, down to `fuel` levels. -/
def entriesBelow (p : Project) : Nat → Nat → TypeDefinition → List Entry
  | 0, _, _ => []
  | fuel + 1, depth, d =>
    ownEntries p depth d ++
      (d.nestedTypes.filterMap p.definition?).flatMap (entriesBelow p fuel (depth + 1))

/-- All entities of a project: every type is followed by its members and then by the types nested in
it. No type lies deeper than there are types. -/
def entries (p : Project) : List Entry :=
  p.topLevel.flatMap (entriesBelow p p.size 0)

/-- Whether an entity is listed: always, or if it has the wanted name, qualified or not. -/
def isSelected (wanted : Option String) (e : Entry) : Bool :=
  match wanted with
  | none => true
  | some w => w = e.name || w = e.dotted

/-- Two spaces for every enclosing type in a full listing. -/
def indentation (wanted : Option String) (depth : Nat) : String :=
  match wanted with
  | none => String.join (List.replicate depth "  ")
  | some _ => ""

def line (f : Facets) (p : Project) (wanted : Option String) (e : Entry) : Except Error String :=
  match entityText f p e.entity with
  | .ok text => .ok (indentation wanted e.depth ++ text ++ "\n")
  | .error cause => .error ⟨e.dotted, cause⟩

def lines (f : Facets) (p : Project) (wanted : Option String) :
    List Entry → Except Error (List String)
  | [] => .ok []
  | e :: es => do return (← line f p wanted e) :: (← lines f p wanted es)

end Listing

/-- The lines of the selected entities of a project. -/
def listing (f : Facets) (p : Project) (wanted : Option String) : Except Listing.Error String := do
  let lines ← Listing.lines f p wanted ((Listing.entries p).filter (Listing.isSelected wanted))
  return String.join lines

end QuickInfo
