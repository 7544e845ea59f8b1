import QuickInfo.Project.Change
import QuickInfo.Text.Quoted

/-!
# Adding types

A document is checked as a whole, with the types nested in it, before any type of it is added. The
check carries the written names along; the addition looks them up in the project as it grows.
-/
namespace QuickInfo

/-- What is wrong with a name. -/
inductive NameFault where
  | emptyType
  | qualifiedType
  | emptyMember
  deriving DecidableEq, Repr

/-- Why a type is not added to a project. -/
inductive AddError where
  | unknownDeclaringType (id : TypeId)
  | invalidName (name : String) (fault : NameFault)
  | duplicateType (name : String)
  deriving DecidableEq, Repr

def NameFault.message : NameFault → String
  | .emptyType => "type names must not be empty"
  | .qualifiedType => "nest types instead of using qualified names"
  | .emptyMember => "member names must not be empty"

def AddError.message : AddError → String
  | .unknownDeclaringType id => "declaring type " ++ id.text ++ " is not part of this project"
  | .invalidName name fault => "invalid name " ++ Text.quote name ++ ": " ++ fault.message
  | .duplicateType name => "duplicate type definition: " ++ name

/-- What is wrong with the name of a type: it must be neither empty nor look qualified. -/
def typeNameFault? (name : String) : Option NameFault :=
  if name = "" then some .emptyType
  else if '.' ∈ name.toList ∨ '+' ∈ name.toList then some .qualifiedType
  else none

/-- Where types are declared: in a namespace, or in a type of that namespace with the given written
name. -/
structure Scope where
  ns : String
  outerName : Option String
  deriving DecidableEq, Repr

namespace Scope

/-- The written name of a type of the scope. -/
def nameOf (s : Scope) (name : String) : String :=
  match s.outerName with
  | some outer => outer ++ "+" ++ name
  | none => QualifiedName.qualify s.ns name

/-- The scope inside a type of the scope. -/
def inside (s : Scope) (name : String) : Scope :=
  { s with outerName := some (s.nameOf name) }

def keyOf (s : Scope) (h : TypeHeader) : TypeKey := ⟨s.nameOf h.name, h.arity⟩

end Scope

/-- The definition of a new type, without its nested types. -/
def TypeDocument.definition (d : TypeDocument) (id : TypeId) (ns : String)
    (outer : Option TypeId) : TypeDefinition where
  toTypeHeader := d.toTypeHeader
  id := id
  ns := ns
  declaringType := outer
  nestedTypes := []
  members := d.members.mapIdx fun i m => { toMemberDocument := m, id := ⟨id, i⟩ }

/-- The definition with one more nested type. -/
def TypeDefinition.withNested (d : TypeDefinition) (id : TypeId) : TypeDefinition :=
  { d with nestedTypes := d.nestedTypes ++ [id] }

namespace Project

/-- The first thing wrong with a type: its name, another type of its key in the project or among the
`pending` ones, or the name of a member. -/
def refusal? (p : Project) (pending : List TypeKey) (key : TypeKey) (d : TypeDocument) :
    Option AddError :=
  match typeNameFault? d.name with
  | some fault => some (.invalidName d.name fault)
  | none =>
    if (p.find? key).isSome ∨ key ∈ pending then some (.duplicateType key.name)
    else if d.members.any fun m => m.name = "" then some (.invalidName "" .emptyMember)
    else none

mutual

/-- Checks a type and the types nested in it. `pending` are the keys of the types checked before;
the result has the new keys as well. -/
def validate (p : Project) (s : Scope) (pending : List TypeKey) :
    TypeDocument → Except AddError (List TypeKey)
  | ⟨header, ownNs, members, nested⟩ =>
    match p.refusal? pending (s.keyOf header) ⟨header, ownNs, members, nested⟩ with
    | some e => .error e
    | none => p.validateAll (s.inside header.name) (s.keyOf header :: pending) nested

def validateAll (p : Project) (s : Scope) (pending : List TypeKey) :
    List TypeDocument → Except AddError (List TypeKey)
  | [] => .ok pending
  | d :: ds => do
    let pending ← p.validate s pending d
    p.validateAll s pending ds

end

/-- Notes a type among the nested types of its enclosing type. -/
def noteNested (types : Array TypeDefinition) (outer : Option TypeId) (id : TypeId) :
    Array TypeDefinition :=
  match outer with
  | none => types
  | some o => types.modify o.index fun d => d.withNested id

/-- Adds one definition, under its name and arity. -/
def push (p : Project) (d : TypeDefinition) : Project :=
  { types := noteNested (p.types.push d) d.declaringType d.id
    index := (p.key d, d.id) :: p.index }

mutual

/-- Adds a type and the types nested in it, unchecked. -/
def insert (p : Project) (ns : String) (outer : Option TypeId) : TypeDocument → Project
  | ⟨header, ownNs, members, nested⟩ =>
    (p.push (TypeDocument.definition ⟨header, ownNs, members, nested⟩ ⟨p.size⟩ ns outer)).insertAll
      ns (some ⟨p.size⟩) nested

def insertAll (p : Project) (ns : String) (outer : Option TypeId) : List TypeDocument → Project
  | [] => p
  | d :: ds => (p.insert ns outer d).insertAll ns outer ds

end

/-- Where a document is declared: in its own namespace, or in a type of the project. -/
def scope (p : Project) (d : TypeDocument) (outer : Option TypeId) : Except AddError Scope :=
  match outer with
  | none => .ok ⟨d.ns, none⟩
  | some id =>
    match p.definition? id with
    | none => .error (.unknownDeclaringType id)
    | some o => .ok ⟨o.ns, some (p.reflectionName o)⟩

/-- Adds a type document, in its own namespace or inside a type of the project; the answer is the
identifier of the new type. -/
def addType (d : TypeDocument) (outer : Option TypeId) : Change AddError TypeId := do
  let p ← get
  let s ← ofExcept (p.scope d outer)
  let _ ← ofExcept (p.validate s [] d)
  set (p.insert s.ns outer d)
  return ⟨p.size⟩

/-- Adds top-level types in their order. -/
def addTypes : List TypeDocument → Change AddError Unit
  | [] => return ()
  | d :: ds => do
    let _ ← addType d none
    addTypes ds

/-- The project of a snapshot. -/
def ofDocument (d : AssemblyDocument) : Except AddError Project :=
  match (∅ : Project).perform (addTypes d.types) with
  | (.ok (), p) => .ok p
  | (.error e, _) => .error e

@[simp] theorem size_noteNested (types : Array TypeDefinition) (outer : Option TypeId)
    (id : TypeId) : (noteNested types outer id).size = types.size := by
  cases outer <;> simp [noteNested]

@[simp] theorem size_push (p : Project) (d : TypeDefinition) : (p.push d).size = p.size + 1 := by
  simp [push, size]

/-- The new type is found under its key, every other type as before. -/
theorem find?_push (p : Project) (d : TypeDefinition) (key : TypeKey) :
    (p.push d).find? key = if key = p.key d then some d.id else p.find? key := by
  by_cases h : key = p.key d
  · simp [push, find?, h]
  · have hb : (key == p.key d) = false := by simpa using h
    simp [push, find?, List.lookup_cons, h, hb]

/-- A type is refused for its own name, for a type of the same key or for a member's name. -/
theorem refusal?_eq_none_iff {p : Project} {pending : List TypeKey} {key : TypeKey}
    {d : TypeDocument} :
    p.refusal? pending key d = none ↔
      typeNameFault? d.name = none ∧ (p.find? key = none ∧ key ∉ pending) ∧
        ∀ m ∈ d.members, m.name ≠ "" := by
  unfold refusal?
  cases typeNameFault? d.name with
  | some fault => simp
  | none =>
    cases hf : p.find? key with
    | some id => simp
    | none => by_cases hk : key ∈ pending <;> simp [hk]

theorem perform_addType (p : Project) (d : TypeDocument) (outer : Option TypeId) :
    p.perform (addType d outer) =
      match p.scope d outer with
      | .error e => (.error e, p)
      | .ok s =>
        match p.validate s [] d with
        | .error e => (.error e, p)
        | .ok _ => (.ok ⟨p.size⟩, p.insert s.ns outer d) := by
  cases hs : p.scope d outer with
  | error e => simp only [addType, perform_bind, perform_get, perform_ofExcept, hs]
  | ok s =>
    cases hv : p.validate s [] d with
    | error e => simp only [addType, perform_bind, perform_get, perform_ofExcept, hs, hv]
    | ok keys =>
      simp only [addType, perform_bind, perform_get, perform_ofExcept, perform_set, perform_pure,
        hs, hv]

/-- An addition is refused before anything is added, or passes the check and is made. -/
theorem perform_addType_cases (p : Project) (d : TypeDocument) (outer : Option TypeId) :
    (∃ e, p.perform (addType d outer) = (.error e, p)) ∨
      ∃ s keys, p.scope d outer = .ok s ∧ p.validate s [] d = .ok keys ∧
        p.perform (addType d outer) = (.ok ⟨p.size⟩, p.insert s.ns outer d) := by
  rw [perform_addType]
  cases hs : p.scope d outer with
  | error e => exact .inl ⟨e, rfl⟩
  | ok s =>
    cases hv : p.validate s [] d with
    | error e => exact .inl ⟨e, by simp only [hv]⟩
    | ok keys => exact .inr ⟨s, keys, rfl, hv, by simp only [hv]⟩

/-- What the empty project becomes by adding types one after another, accepted or not. -/
inductive Reachable : Project → Prop where
  | empty : Reachable ∅
  | add {p : Project} (d : TypeDocument) (outer : Option TypeId) :
    Reachable p → Reachable (p.perform (addType d outer)).2

end Project

end QuickInfo
