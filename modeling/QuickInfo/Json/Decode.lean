import QuickInfo.Json.Source
import QuickInfo.Enumeration

/-!
# Decoding

Readers of sources. The parts of a source are read in the order in which they stand, and the first
thing wrong, a mismatch or a fault, is reported.
-/
namespace QuickInfo.Json

abbrev Decoder (ε α : Type) : Type := Source ε → Except (Failure ε) α

/-- How a carrier of JSON reports parts that are out of place. -/
structure Medium (ε : Type) where
  /-- A value that cannot be a name, or has more parts than a name. -/
  misplaced : Mismatch → Failure ε
  /-- A list of `length` items for a record with `wanted` fields. -/
  surplus (length wanted : Nat) : Failure ε
  /-- Whether the parts of a name are counted before they are read. -/
  countsFirst : Bool

namespace Medium

/-- A value in memory. -/
def memory : Medium Empty where
  misplaced := .mismatch
  surplus length _ := .mismatch (.invalidLength length "fewer elements in array")
  countsFirst := true

/-- A value that was read whole before its kind was known. -/
def buffer : Medium Empty where
  misplaced := .mismatch
  surplus length wanted := .mismatch (.invalidLength length
    (if wanted = 1 then "1 element in sequence" else toString wanted ++ " elements in sequence"))
  countsFirst := true

/-- A text, in which a part out of place is a fault of the given kind. -/
def text {ε : Type} (malformed : ε) : Medium ε where
  misplaced _ := .fault malformed
  surplus _ _ := .fault malformed
  countsFirst := false

end Medium

namespace Decode

variable {ε α : Type}

def mismatch (m : Mismatch) : Except (Failure ε) α := .error (.mismatch m)

/-- Lets a fault through. -/
def faulty : Except ε α → Except (Failure ε) α
  | .ok a => .ok a
  | .error e => .error (.fault e)

def check (stop : Option ε) : Except (Failure ε) Unit := faulty (Source.check stop)

def string : Decoder ε String
  | .string s => .ok s
  | v => .error (Source.mistyped "a string" v)

/-- `null`, or a value. -/
def optional (d : Decoder ε α) : Decoder ε (Option α)
  | .null => .ok none
  | .damaged damage =>
    match damage.null with
    | some e => .error (.fault e)
    | none => some <$> d (.damaged damage)
  | v => some <$> d v

def unit : Decoder ε Unit
  | .null => .ok ()
  | v => .error (Source.mistyped "unit" v)

def items (d : Decoder ε α) : List (Source ε) → Except (Failure ε) (List α)
  | [] => .ok []
  | v :: vs => do return (← d v) :: (← items d vs)

def list (d : Decoder ε α) : Decoder ε (List α)
  | .array vs stop => do
    let as ← items d vs
    check stop
    return as
  | .deep e (.array _ _) => .error (.fault e)
  | v => .error (Source.mistyped "a sequence" v)

/-- The value with the given name. -/
def named [Enumeration α] (s : String) : Except (Failure ε) α :=
  match Enumeration.ofName? s with
  | some a => .ok a
  | none => mismatch (.unknownVariant s (Enumeration.names α))

/-- The name of a value of an enumeration: a string, or an object with the name as its only key and
`null` as its value. -/
def enumeration (medium : Medium ε) [Enumeration α] : Decoder ε α
  | .string s => named s
  | .damaged d => .error (.fault d.name)
  | .object fields stop =>
    match fields with
    | [] => do
      check stop
      .error (medium.misplaced oneKey)
    | (key, v) :: rest => do
      if medium.countsFirst && !rest.isEmpty then
        .error (medium.misplaced oneKey)
      let name ← key.mapError fun d => .fault d.name
      let a ← named name
      unit v
      if !rest.isEmpty then
        .error (medium.misplaced oneKey)
      check stop
      return a
  | .deep e (.object _ _) => .error (.fault e)
  | .null => .error (medium.misplaced (.invalidType .null nameOrMap))
  | .bool b => .error (medium.misplaced (.invalidType (.bool b) nameOrMap))
  | .number n => .error (medium.misplaced (.invalidType (.number n) nameOrMap))
  | _ => .error (medium.misplaced (.invalidType .sequence nameOrMap))
where
  oneKey : Mismatch := .invalidValue .map "map with a single key"
  nameOrMap : String := "string or map"

end Decode

/-- A field of a record and the reader that stores its value. A field that is not required keeps
the value it has in the blank record. -/
structure Field (ε α : Type) where
  key : String
  required : Bool
  read : Source ε → α → Except (Failure ε) α

/-- How a record is written: as an object, or as the list of its fields. -/
structure Record (ε α : Type) where
  name : String
  blank : α
  fields : List (Field ε α)

namespace Record

open Decode

variable {ε α : Type}

def field? (r : Record ε α) (key : String) : Option (Field ε α) :=
  r.fields.find? fun f => f.key == key

/-- Reports the first required field that is not among the keys. -/
def missing? (r : Record ε α) (seen : List String) : Option String :=
  (r.fields.find? fun f => f.required && !seen.contains f.key).map Field.key

/-- Reads the fields of an object in their order. A field of the record may come once; others are
passed over. -/
def ofFields (r : Record ε α) (stop : Option ε) (seen : List String) (a : α) :
    List (Key ε × Source ε) → Except (Failure ε) α
  | [] => do
    check stop
    match r.missing? seen with
    | some key => mismatch (.missingField key)
    | none => return a
  | (.error d, _) :: _ => .error (.fault d.read)
  | (.ok key, v) :: rest =>
    match r.field? key with
    | none => do
      faulty v.skip
      r.ofFields stop seen a rest
    | some f =>
      if seen.contains key then mismatch (.duplicateField key)
      else do
        let a ← f.read v a
        r.ofFields stop (key :: seen) a rest

/-- Reads the remaining fields, the first of which has the given position, from a list of items.
Fields that are not required may be absent at the end. -/
def ofItems (medium : Medium ε) (r : Record ε α) (length : Nat) (stop : Option ε) (position : Nat)
    (a : α) : List (Field ε α) → List (Source ε) → Except (Failure ε) α
  | [], [] => do
    check stop
    return a
  | [], _ :: _ => .error (medium.surplus length r.fields.length)
  | f :: fields, [] => do
    check stop
    if f.required then
      mismatch (.invalidLength position
        (r.name ++ " with " ++ toString r.fields.length ++
          (if r.fields.length = 1 then " element" else " elements")))
    else ofItems medium r length stop (position + 1) a fields []
  | f :: fields, v :: vs => do
    let a ← f.read v a
    ofItems medium r length stop (position + 1) a fields vs

def decode (medium : Medium ε) (r : Record ε α) : Decoder ε α
  | .object fields stop => r.ofFields stop [] r.blank fields
  | .array vs stop => r.ofItems medium vs.length stop 0 r.blank r.fields vs
  | .deep e _ => .error (.fault e)
  | v => .error (Source.mistyped r.name v)

end Record

end QuickInfo.Json
