import QuickInfo.Json.Mismatch

/-!
# Sources

A JSON document as it stands before it is read: a tree in which some places are damaged. A source
from memory has no damage; one from a text ends at its first fault, and what is reported depends on
how far a reader goes and on whether it reads a value or passes over it.
-/
namespace QuickInfo.Json

/-- What is reported at a damaged place. -/
structure Damage (ε : Type) where
  /-- By a reader of any value. -/
  read : ε
  /-- By a reader that wants a name. -/
  name : ε
  /-- By a reader that also takes `null`, if the place begins like it. -/
  null : Option ε
  /-- By a reader that passes over the value, if it notices. -/
  skip : Option ε

/-- The same report for every reader. -/
def Damage.all {ε : Type} (e : ε) : Damage ε := ⟨e, e, none, some e⟩

abbrev Key (ε : Type) : Type := Except (Damage ε) String

/-- A document with damage. A container carries the fault at the place where neither a further part
nor its end follows; `deep` marks a container that lies too deep to be read. -/
inductive Source (ε : Type) where
  | null
  | bool (b : Bool)
  | number (n : Number)
  | string (s : String)
  | damaged (d : Damage ε)
  | array (items : List (Source ε)) (stop : Option ε)
  | object (fields : List (Key ε × Source ε)) (stop : Option ε)
  | deep (fault : ε) (value : Source ε)

namespace Source

variable {ε : Type}

/-- Reports the fault if there is one. -/
def check : Option ε → Except ε Unit
  | none => .ok ()
  | some e => .error e

/-- The report on a value that is not what is expected. The inside of a container is not looked
at. -/
def mistyped (expected : String) : Source ε → Failure ε
  | .null => .mismatch (.invalidType .null expected)
  | .bool b => .mismatch (.invalidType (.bool b) expected)
  | .number n => .mismatch (.invalidType (.number n) expected)
  | .string s => .mismatch (.invalidType (.string s) expected)
  | .damaged d => .fault d.read
  | .array _ _ => .mismatch (.invalidType .sequence expected)
  | .object _ _ => .mismatch (.invalidType .map expected)
  | .deep _ v => mistyped expected v

mutual

/-- Passes over a value without reading it. -/
def skip : Source ε → Except ε Unit
  | .damaged d => check d.skip
  | .array items stop => do skipItems items; check stop
  | .object fields stop => do skipFields fields; check stop
  | .deep _ v => skip v
  | _ => .ok ()

def skipItems : List (Source ε) → Except ε Unit
  | [] => .ok ()
  | v :: vs => do skip v; skipItems vs

def skipFields : List (Key ε × Source ε) → Except ε Unit
  | [] => .ok ()
  | (.ok _, v) :: fields => do skip v; skipFields fields
  | (.error d, v) :: fields => do check d.skip; skip v; skipFields fields

end

mutual

/-- Reads a value whole. -/
def value : Source ε → Except ε Json
  | .null => .ok .null
  | .bool b => .ok (.bool b)
  | .number n => .ok (.number n)
  | .string s => .ok (.string s)
  | .damaged d => .error d.read
  | .array items stop => do
    let js ← values items
    check stop
    return .array js
  | .object fields stop => do
    let js ← valueFields fields
    check stop
    return .object js
  | .deep e _ => .error e

def values : List (Source ε) → Except ε (List Json)
  | [] => .ok []
  | v :: vs => do return (← value v) :: (← values vs)

def valueFields : List (Key ε × Source ε) → Except ε (List (String × Json))
  | [] => .ok []
  | (.ok k, v) :: fields => do return (k, ← value v) :: (← valueFields fields)
  | (.error d, _) :: _ => .error d.read

end

mutual

/-- The source of a value in memory. -/
def ofJson : Json → Source ε
  | .null => .null
  | .bool b => .bool b
  | .number n => .number n
  | .string s => .string s
  | .array items => .array (ofItems items) none
  | .object fields => .object (ofFields fields) none

def ofItems : List Json → List (Source ε)
  | [] => []
  | j :: js => ofJson j :: ofItems js

def ofFields : List (String × Json) → List (Key ε × Source ε)
  | [] => []
  | (k, v) :: fields => (.ok k, ofJson v) :: ofFields fields

end

mutual

/-- A value in memory is read back as it is. -/
theorem value_ofJson (j : Json) : value (ofJson j : Source ε) = .ok j := by
  cases j with
  | array items =>
    simp [ofJson, value, values_ofItems items, check, bind, Except.bind, pure, Except.pure]
  | object fields =>
    simp [ofJson, value, valueFields_ofFields fields, check, bind, Except.bind, pure, Except.pure]
  | _ => rfl

theorem values_ofItems (js : List Json) : values (ofItems js : List (Source ε)) = .ok js := by
  cases js with
  | nil => rfl
  | cons j js =>
    simp [ofItems, values, value_ofJson j, values_ofItems js, bind, Except.bind, pure,
      Except.pure]

theorem valueFields_ofFields (fields : List (String × Json)) :
    valueFields (ofFields fields : List (Key ε × Source ε)) = .ok fields := by
  cases fields with
  | nil => rfl
  | cons f fields =>
    obtain ⟨k, v⟩ := f
    simp [ofFields, valueFields, value_ofJson v, valueFields_ofFields fields, bind, Except.bind,
      pure, Except.pure]

end

mutual

/-- A value in memory is passed over without a report. -/
theorem skip_ofJson (j : Json) : skip (ofJson j : Source ε) = .ok () := by
  cases j with
  | array items => simp [ofJson, skip, skipItems_ofItems items, check, bind, Except.bind]
  | object fields => simp [ofJson, skip, skipFields_ofFields fields, check, bind, Except.bind]
  | _ => rfl

theorem skipItems_ofItems (js : List Json) : skipItems (ofItems js : List (Source ε)) = .ok () := by
  cases js with
  | nil => rfl
  | cons j js => simp [ofItems, skipItems, skip_ofJson j, skipItems_ofItems js, bind, Except.bind]

theorem skipFields_ofFields (fields : List (String × Json)) :
    skipFields (ofFields fields : List (Key ε × Source ε)) = .ok () := by
  cases fields with
  | nil => rfl
  | cons f fields =>
    obtain ⟨k, v⟩ := f
    simp [ofFields, skipFields, skip_ofJson v, skipFields_ofFields fields, bind, Except.bind]

end

mutual

/-- How many levels of values the source has. -/
def depth : Source ε → Nat
  | .array items _ => depthItems items + 1
  | .object fields _ => depthFields fields + 1
  | .deep _ v => depth v + 1
  | _ => 1

def depthItems : List (Source ε) → Nat
  | [] => 0
  | v :: vs => max (depth v) (depthItems vs)

def depthFields : List (Key ε × Source ε) → Nat
  | [] => 0
  | (_, v) :: fields => max (depth v) (depthFields fields)

end

end Source

end QuickInfo.Json
