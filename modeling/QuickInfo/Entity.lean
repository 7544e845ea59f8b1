import QuickInfo.Enumeration

/-!
# Entities

The identifiers of types and members, and the enumerations that describe them, each with the names
it has in a snapshot.
-/
namespace QuickInfo

/-- The position of a type definition in its project. -/
structure TypeId where
  index : Nat
  deriving DecidableEq, Repr

/-- A member is addressed by its declaring type and its position there. -/
structure MemberId where
  declaringType : TypeId
  index : Nat
  deriving DecidableEq, Repr

/-- Anything with a declaration header. -/
inductive Entity where
  | type (id : TypeId)
  | member (id : MemberId)
  deriving DecidableEq, Repr

def TypeId.text (id : TypeId) : String :=
  "TypeId(" ++ toString id.index ++ ")"

def MemberId.text (id : MemberId) : String :=
  "MemberId \x7b declaring_type: " ++ id.declaringType.text ++ ", index: " ++ toString id.index ++
    " \x7d"

def Entity.text : Entity → String
  | .type id => "Type(" ++ id.text ++ ")"
  | .member id => "Member(" ++ id.text ++ ")"

inductive Accessibility where
  | unspecified
  | privateAccess
  | publicAccess
  | protectedAccess
  | internalAccess
  | protectedOrInternal
  deriving DecidableEq, Repr

instance : Enumeration Accessibility where
  all := [.unspecified, .privateAccess, .publicAccess, .protectedAccess, .internalAccess,
    .protectedOrInternal]
  mem_all a := by cases a <;> decide
  name
    | .unspecified => "none"
    | .privateAccess => "private"
    | .publicAccess => "public"
    | .protectedAccess => "protected"
    | .internalAccess => "internal"
    | .protectedOrInternal => "protected_or_internal"

/-- The modifiers other than accessibility that a type or member carries. -/
inductive EntityModifier where
  | static
  | abstract
  | sealed
  | virtual
  | override
  | new
  | readonly
  | const
  | volatile
  | external
  | unsafeContext
  | partialDefinition
  | fixed
  deriving DecidableEq, Repr

instance : Enumeration EntityModifier where
  all := [.static, .abstract, .sealed, .virtual, .override, .new, .readonly, .const, .volatile,
    .external, .unsafeContext, .partialDefinition, .fixed]
  mem_all a := by cases a <;> decide
  name
    | .static => "static"
    | .abstract => "abstract"
    | .sealed => "sealed"
    | .virtual => "virtual"
    | .override => "override"
    | .new => "new"
    | .readonly => "readonly"
    | .const => "const"
    | .volatile => "volatile"
    | .external => "extern"
    | .unsafeContext => "unsafe"
    | .partialDefinition => "partial"
    | .fixed => "fixed"

inductive TypeKind where
  | classType
  | structType
  | interfaceType
  | enumType
  | delegateType
  | moduleType
  deriving DecidableEq, Repr

instance : Enumeration TypeKind where
  all := [.classType, .structType, .interfaceType, .enumType, .delegateType, .moduleType]
  mem_all a := by cases a <;> decide
  name
    | .classType => "class"
    | .structType => "struct"
    | .interfaceType => "interface"
    | .enumType => "enum"
    | .delegateType => "delegate"
    | .moduleType => "module"

inductive MemberKind where
  | method
  | property
  | indexer
  | constructor
  | destructor
  | operator
  | field
  | event
  deriving DecidableEq, Repr

instance : Enumeration MemberKind where
  all := [.method, .property, .indexer, .constructor, .destructor, .operator, .field, .event]
  mem_all a := by cases a <;> decide
  name
    | .method => "method"
    | .property => "property"
    | .indexer => "indexer"
    | .constructor => "constructor"
    | .destructor => "destructor"
    | .operator => "operator"
    | .field => "field"
    | .event => "event"

/-- The kinds that take a parameter list. -/
def MemberKind.isParameterized : MemberKind → Bool
  | .method | .constructor | .destructor | .operator | .indexer => true
  | .property | .field | .event => false

inductive Variance where
  | invariant
  | covariant
  | contravariant
  deriving DecidableEq, Repr

instance : Enumeration Variance where
  all := [.invariant, .covariant, .contravariant]
  mem_all a := by cases a <;> decide
  name
    | .invariant => "invariant"
    | .covariant => "covariant"
    | .contravariant => "contravariant"

inductive ParameterModifier where
  | ref
  | out
  | params
  | this
  deriving DecidableEq, Repr

instance : Enumeration ParameterModifier where
  all := [.ref, .out, .params, .this]
  mem_all a := by cases a <;> decide
  name
    | .ref => "ref"
    | .out => "out"
    | .params => "params"
    | .this => "this"

structure TypeParameter where
  name : String
  variance : Variance
  deriving DecidableEq, Repr

end QuickInfo
