import QuickInfo.Json.Decode
import QuickInfo.Json.Text
import QuickInfo.Project.Add

/-!
# Snapshots

Projects as JSON documents. Types, members and parameters are records; a type reference is an object
with a `kind`, or a list that starts with one, and is read whole before its kind decides what its
other parts mean.
-/
namespace QuickInfo.Snapshot

open Json (Source Decoder Medium Failure Mismatch Record Field)
open Json.Decode

section Reference

/-- The kinds of a type reference. -/
inductive ReferenceKind where
  | named
  | typeParameter
  | array
  | pointer
  | byReference
  deriving DecidableEq, Repr

instance : Enumeration ReferenceKind where
  all := [.named, .typeParameter, .array, .pointer, .byReference]
  mem_all a := by cases a <;> decide
  name
    | .named => "named"
    | .typeParameter => "type_parameter"
    | .array => "array"
    | .pointer => "pointer"
    | .byReference => "by_reference"

/-- Where a reference stands: by itself, or inside another one, where its kind may also be given
by its number. -/
inductive Position where
  | outer
  | inner
  deriving DecidableEq, Repr

variable {ε : Type}

def referenceKind (position : Position) : Decoder ε ReferenceKind
  | .string s => named s
  | .number (.integer n) =>
    match position with
    | .outer => mismatch (.invalidType (.number (.integer n)) "variant identifier")
    | .inner =>
      if n < 0 then mismatch (.invalidType (.number (.integer n)) "variant identifier")
      else
        match (Enumeration.all : List ReferenceKind)[n.toNat]? with
        | some k => .ok k
        | none => mismatch (.invalidValue (.number (.integer n)) "variant index 0 <= i < 5")
  | v => .error (Source.mistyped "variant identifier" v)

/-- The fields of a reference without its kind. -/
def referenceFields (position : Position) (stop : Option ε) (kind : Option ReferenceKind)
    (done : List (String × Json)) : List (Json.Key ε × Source ε) →
    Except (Failure ε) (ReferenceKind × Json)
  | [] => do
    check stop
    match kind with
    | some k => return (k, .object done.reverse)
    | none => mismatch (.missingField "kind")
  | (.error d, _) :: _ => .error (.fault d.read)
  | (.ok key, v) :: rest =>
    if key = "kind" then
      match kind with
      | some _ => mismatch (.duplicateField "kind")
      | none => do
        let k ← referenceKind position v
        referenceFields position stop (some k) done rest
    else do
      let j ← faulty v.value
      referenceFields position stop kind ((key, j) :: done) rest

/-- The kind of a reference and its other parts. -/
def taggedParts (position : Position) : Decoder ε (ReferenceKind × Json)
  | .object fields stop => referenceFields position stop none [] fields
  | .array [] stop => do
    check stop
    mismatch (.missingField "kind")
  | .array (v :: vs) stop => do
    let k ← referenceKind position v
    let js ← faulty (Source.values vs)
    check stop
    return (k, .array js)
  | .deep e _ => .error (.fault e)
  | v => .error (Source.mistyped "internally tagged enum TypeReference" v)

def rank : Decoder Empty Nat
  | .number (.integer n) =>
    if n < 0 then mismatch (.invalidValue (.number (.integer n)) "usize") else .ok n.toNat
  | v => .error (Source.mistyped "usize" v)

/-- The parts that references of all kinds can have. -/
structure ReferenceParts where
  name : String := ""
  arguments : List TypeReference := []
  element : TypeReference := .void
  rank : Nat := 1

namespace ReferenceKind

/-- The reference of a kind with the given parts. -/
def build : ReferenceKind → ReferenceParts → TypeReference
  | .named, a => .named a.name a.arguments
  | .typeParameter, a => .typeParameter a.name
  | .array, a => .array a.element a.rank
  | .pointer, a => .pointer a.element
  | .byReference, a => .byReference a.element

def nameField : Field Empty ReferenceParts :=
  ⟨"name", true, fun v a => do return { a with name := ← string v }⟩

def argumentsField (inner : Decoder Empty TypeReference) : Field Empty ReferenceParts :=
  ⟨"type_arguments", false, fun v a => do return { a with arguments := ← list inner v }⟩

def elementField (inner : Decoder Empty TypeReference) : Field Empty ReferenceParts :=
  ⟨"element", true, fun v a => do return { a with element := ← inner v }⟩

def rankField : Field Empty ReferenceParts :=
  ⟨"rank", false, fun v a => do return { a with rank := ← rank v }⟩

/-- The parts of a reference of a kind, given a decoder of the references inside it. -/
def record (inner : Decoder Empty TypeReference) : ReferenceKind → Record Empty ReferenceParts
  | .named =>
    ⟨"struct variant TypeReference::Named", {}, [nameField, argumentsField inner]⟩
  | .typeParameter =>
    ⟨"struct variant TypeReference::TypeParameter", {}, [nameField]⟩
  | .array =>
    ⟨"struct variant TypeReference::Array", {}, [elementField inner, rankField]⟩
  | .pointer =>
    ⟨"struct variant TypeReference::Pointer", {}, [elementField inner]⟩
  | .byReference =>
    ⟨"struct variant TypeReference::ByReference", {}, [elementField inner]⟩

/-- A reference whose kind is known. -/
def decode (inner : Decoder Empty TypeReference) (kind : ReferenceKind) (parts : Json) :
    Except (Failure Empty) TypeReference :=
  kind.build <$> (kind.record inner).decode .buffer (Source.ofJson parts)

end ReferenceKind

/-- A reference inside another one, of at most the given number of levels. -/
def innerReference : Nat → Decoder Empty TypeReference
  | 0, v => .error (Source.mistyped "internally tagged enum TypeReference" v)
  | levels + 1, v => do
    let (kind, parts) ← taggedParts .inner v
    kind.decode (innerReference levels) parts

def widen {α : Type} : Except (Failure Empty) α → Except (Failure ε) α
  | .ok a => .ok a
  | .error (.mismatch m) => .error (.mismatch m)
  | .error (.fault e) => nomatch e

/-- A type reference. -/
def reference : Decoder ε TypeReference := fun v => do
  let (kind, parts) ← taggedParts .outer v
  widen (kind.decode (innerReference parts.depth) parts)

end Reference

section Document

variable {ε : Type} (medium : Medium ε)

def typeParameter : Record ε TypeParameter where
  name := "struct TypeParameter"
  blank := ⟨"", .invariant⟩
  fields := [
    ⟨"name", true, fun v t => do return { t with name := ← string v }⟩,
    ⟨"variance", false, fun v t => do return { t with variance := ← enumeration medium v }⟩]

def parameter : Record ε Parameter where
  name := "struct Parameter"
  blank := ⟨"", .void, none⟩
  fields := [
    ⟨"name", true, fun v a => do return { a with name := ← string v }⟩,
    ⟨"type", true, fun v a => do return { a with type := ← reference v }⟩,
    ⟨"modifier", false, fun v a => do
      return { a with modifier := ← optional (enumeration medium) v }⟩]

def memberDocument : Record ε MemberDocument where
  name := "struct MemberDocument"
  blank := { kind := .method, name := "" }
  fields := [
    ⟨"kind", true, fun v m => do return { m with kind := ← enumeration medium v }⟩,
    ⟨"name", true, fun v m => do return { m with name := ← string v }⟩,
    ⟨"accessibility", false, fun v m => do
      return { m with accessibility := ← enumeration medium v }⟩,
    ⟨"modifiers", false, fun v m => do
      return { m with modifiers := ← list (enumeration medium) v }⟩,
    ⟨"return_type", false, fun v m => do return { m with returnType := ← reference v }⟩,
    ⟨"parameters", false, fun v m => do
      return { m with parameters := ← list ((parameter medium).decode medium) v }⟩,
    ⟨"type_parameters", false, fun v m => do
      return { m with typeParameters := ← list ((typeParameter medium).decode medium) v }⟩]

/-- A type document, given a decoder of the documents nested in it. -/
def typeRecord (nested : Decoder ε TypeDocument) : Record ε TypeDocument where
  name := "struct TypeDocument"
  blank := { kind := .classType, name := "" }
  fields := [
    ⟨"namespace", false, fun v d => do return { d with ns := ← string v }⟩,
    ⟨"name", true, fun v d => do return { d with name := ← string v }⟩,
    ⟨"kind", true, fun v d => do return { d with kind := ← enumeration medium v }⟩,
    ⟨"accessibility", false, fun v d => do
      return { d with accessibility := ← enumeration medium v }⟩,
    ⟨"modifiers", false, fun v d => do
      return { d with modifiers := ← list (enumeration medium) v }⟩,
    ⟨"type_parameters", false, fun v d => do
      return { d with typeParameters := ← list ((typeParameter medium).decode medium) v }⟩,
    ⟨"members", false, fun v d => do
      return { d with members := ← list ((memberDocument medium).decode medium) v }⟩,
    ⟨"nested_types", false, fun v d => do return { d with nestedTypes := ← list nested v }⟩]

/-- A type document of at most the given number of levels. -/
def typeDocumentWithin : Nat → Decoder ε TypeDocument
  | 0, v => .error (Source.mistyped "struct TypeDocument" v)
  | levels + 1, v => (typeRecord medium (typeDocumentWithin levels)).decode medium v

def typeDocument : Decoder ε TypeDocument := fun v =>
  typeDocumentWithin medium v.depth v

def assemblyRecord : Record ε AssemblyDocument where
  name := "struct AssemblyDocument"
  blank := { types := [] }
  fields := [
    ⟨"name", false, fun v d => do return { d with name := ← optional string v }⟩,
    ⟨"types", true, fun v d => do return { d with types := ← list (typeDocument medium) v }⟩]

def assembly : Decoder ε AssemblyDocument := (assemblyRecord medium).decode medium

end Document

/-- Decodes a value in memory. -/
def ofJson {α : Type} (d : Decoder Empty α) (j : Json) : Except Mismatch α :=
  match d (Source.ofJson j) with
  | .ok a => .ok a
  | .error (.mismatch m) => .error m
  | .error (.fault e) => nomatch e

/-- Containers inside this many others are too deep to be read from a text. -/
def textDepth : Nat := 127

/-- Decodes a text. What comes first in it decides. -/
def ofText (text : List Char) : Except (Failure Json.Fault) AssemblyDocument := do
  let (source, trailing) := Json.Text.source (some textDepth) text
  let d ← assembly (.text .malformed) source
  check trailing
  return d

end QuickInfo.Snapshot
