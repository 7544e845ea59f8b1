import QuickInfo.Declaration.Basic
import QuickInfo.Operator
import QuickInfo.Project.Resolve

/-!
# Building declarations

The declarations of the types, members and variables of a project. Switches decide which parts are
put into them.
-/
namespace QuickInfo

/-- A local variable, a constant or a parameter. -/
structure Variable where
  name : String
  type : TypeReference
  modifier : Option ParameterModifier := none
  isConst : Bool := false
  value : Option Constant := none

/-- Why an entity has no declaration text. -/
inductive DeclarationError where
  | unknownEntity (entity : Entity)
  | missingDefinition (id : TypeId)
  | missingEnclosing (id : TypeId) (name : String)
  | missingDeclaring (member : String)
  | unqualifiable (member type : String)
  | delegateHeader (name : String)
  | moduleKeyword (name : String)
  deriving DecidableEq, Repr

def DeclarationError.cause : DeclarationError → String
  | .unknownEntity entity => entity.text ++ " does not belong to this context"
  | .missingDefinition id => "no type definition for handle " ++ id.text
  | .missingEnclosing id name => "enclosing type " ++ id.text ++ " of " ++ name ++ " is missing"
  | .missingDeclaring member => "declaring type of " ++ member ++ " is missing"
  | .unqualifiable member type => "cannot qualify " ++ member ++ " with " ++ type
  | .delegateHeader name => name ++ " is a delegate and has no type declaration header"
  | .moduleKeyword name => "invalid class type Module for " ++ name

def DeclarationError.message (e : DeclarationError) : String :=
  "internal inconsistency: " ++ e.cause

/-- Which parts of an entity its declaration has, and how types are named in it. -/
structure Switches where
  modifiers : Bool := true
  accessibility : Bool := true
  parameterNames : Bool := true
  naming : Naming := .qualified
  deriving DecidableEq, Repr

/-- The modifiers of a type header besides accessibility. Only classes are abstract or sealed, and a
class that is both is static. -/
def TypeHeader.ownModifiers (h : TypeHeader) : Modifiers :=
  let has m := h.modifiers.contains m
  let isClass := h.kind = .classType
  let isStatic := has .static || (isClass && has .abstract && has .sealed)
  ⟨fun
    | .access _ => false
    | .entity .static => isStatic
    | .entity .abstract => !isStatic && isClass && has .abstract
    | .entity .sealed => !isStatic && isClass && has .sealed
    | .entity .new => has .new
    | .entity .unsafeContext => has .unsafeContext
    | .entity .partialDefinition => has .partialDefinition
    | .entity _ => false⟩

/-- The modifiers of a member besides accessibility. Constants are static without saying so; a
static member is not abstract, virtual, sealed or overriding; an abstract or overriding member is
virtual without saying so; and the members of an interface are abstract without saying so. -/
def MemberDocument.ownModifiers (m : MemberDocument) (inInterface : Bool) : Modifiers :=
  let has e := m.modifiers.contains e
  let isStatic := has .static
  ⟨fun
    | .access _ => false
    | .entity .static => isStatic && !has .const
    | .entity .abstract => !isStatic && has .abstract && !inInterface
    | .entity .override => !isStatic && has .override
    | .entity .virtual => !isStatic && has .virtual && !has .abstract && !has .override
    | .entity .sealed => !isStatic && has .sealed
    | .entity e => has e⟩

namespace Switches

variable (s : Switches)

def typeModifiers (h : TypeHeader) : Modifiers :=
  (if s.accessibility then Modifiers.ofAccessibility h.accessibility else ∅) ∪
    (if s.modifiers then h.ownModifiers else ∅)

/-- A destructor has no modifiers; the members of interfaces and static constructors do not tell
their accessibility. -/
def memberModifiers (m : MemberDocument) (inInterface : Bool) : Modifiers :=
  if m.kind = .destructor then ∅
  else
    let isStaticConstructor := m.kind = .constructor && m.modifiers.contains .static
    (if s.accessibility && !inInterface && !isStaticConstructor then
      Modifiers.ofAccessibility m.accessibility else ∅) ∪
    (if s.modifiers then m.ownModifiers inInterface else ∅)

def typeOf (p : Project) (r : TypeReference) : TypeSyntax :=
  TypeSyntax.ofType s.naming (p.resolve r)

/-- A parameter by reference is a `ref` parameter if it has no modifier of its own. -/
def declareParameter (p : Project) (a : Parameter) : ParameterDeclaration :=
  let resolved := p.resolve a.type
  let modifier := match resolved with
    | .byReference _ => a.modifier.or (some .ref)
    | _ => a.modifier
  { modifier := modifier
    type := TypeSyntax.ofType s.naming resolved
    name := if s.parameterNames then some a.name else none }

def declareType (d : TypeDefinition) : Except DeclarationError TypeDeclaration :=
  match d.kind.header? with
  | none => .error (.delegateHeader d.name)
  | some kind => .ok
    { modifiers := s.typeModifiers d.toTypeHeader
      kind := kind
      name := d.name
      typeParameters := d.typeParameters }

end Switches

/-- The operator that a member defines, if it is one. -/
def MemberDocument.operator? (m : MemberDocument) : Option Operator :=
  if m.kind = .operator then Operator.ofIdentifier? m.name else none

def MemberDocument.isConversion (m : MemberDocument) : Bool :=
  m.operator?.any Operator.isConversion

/-- Constructors, destructors and conversions are declared without a return type. -/
def MemberDocument.hasReturnType (m : MemberDocument) : Bool :=
  !(m.kind = .constructor || m.kind = .destructor || m.isConversion)

namespace Switches

variable (s : Switches)

/-- The declaration of a member whose declaring type is an interface or not. -/
def memberDeclaration (p : Project) (inInterface : Bool) (m : MemberDocument) :
    MemberDeclaration where
  kind := m.kind
  modifiers := s.memberModifiers m inInterface
  returnType := if m.hasReturnType then some (s.typeOf p m.returnType) else none
  name := m.name
  typeParameters := if m.kind = .method then m.typeParameters else []
  parameters := if m.kind.isParameterized then m.parameters.map (s.declareParameter p) else []

/-- The declaration of a member; its declaring type is looked up in the project. -/
def declareMember (p : Project) (m : Member) : Except DeclarationError MemberDeclaration :=
  match p.definition? m.id.declaringType with
  | none => .error (.missingDefinition m.id.declaringType)
  | some d => .ok (s.memberDeclaration p (d.kind = .interfaceType) m.toMemberDocument)

/-- A variable with a modifier is a parameter. -/
def declareVariable (p : Project) (v : Variable) : VariableDeclaration :=
  match v.modifier with
  | some modifier => .parameter (s.declareParameter p ⟨v.name, v.type, some modifier⟩)
  | none => .statement
    { modifiers := if s.modifiers && v.isConst then .ofList [.entity .const] else ∅
      type := s.typeOf p v.type
      name := v.name
      initializer := if v.isConst then v.value else none }

end Switches

end QuickInfo
