import QuickInfo.Json.Token

/-!
# JSON texts

The source of a text: its tokens, put together by an automaton that keeps the containers which are
open.
-/
namespace QuickInfo.Json.Text

/-- An open container with its finished parts, in reverse; an object waits for the value of a
key. -/
inductive Frame where
  | array (items : List (Source Fault))
  | object (fields : List (Key Fault × Source Fault)) (key : Key Fault)

/-- A container inside `depth` others; it is too deep to be read if they are as many as `limit`. -/
def container (limit : Option Nat) (depth : Nat) (v : Source Fault) : Source Fault :=
  match limit with
  | some n => if n ≤ depth then .deep .malformed v else v
  | none => v

/-- The container of a frame, inside `depth` others, with `v` as its last value. -/
def Frame.close (limit : Option Nat) (depth : Nat) (v : Source Fault) (stop : Option Fault) :
    Frame → Source Fault
  | .array items => container limit depth (.array (v :: items).reverse stop)
  | .object fields k => container limit depth (.object ((k, v) :: fields).reverse stop)

/-- Ends all `depth` open containers after a value that breaks off. -/
def unwind (limit : Option Nat) (depth : Nat) (v : Source Fault) : List Frame → Source Fault
  | [] => v
  | f :: frames => unwind limit (depth - 1) (f.close limit (depth - 1) v none) frames

def broken (e : Fault) : Source Fault := .damaged (.all e)

/-- The fault of tokens that should go on with something else. -/
def faultAt : List Token → Fault
  | [] => .cutShort
  | _ :: _ => .malformed

/-- What stands in the place of a key and is no string. -/
def noKey (ts : List Token) : Key Fault := .error (.all (faultAt ts))

mutual

/-- Reads a value inside the `depth` open containers, then goes on with them: the whole source and
the tokens after it. -/
def value (limit : Option Nat) (depth : Nat) (frames : List Frame) :
    List Token → Source Fault × List Token
  | .mark '[' :: .mark ']' :: ts =>
    after limit depth frames (container limit depth (.array [] none)) ts
  | .mark '[' :: ts => value limit (depth + 1) (.array [] :: frames) ts
  | .mark '\x7b' :: .mark '\x7d' :: ts =>
    after limit depth frames (container limit depth (.object [] none)) ts
  | .mark '\x7b' :: .text k :: ts => colon limit depth frames [] k ts
  | .mark '\x7b' :: ts =>
    (unwind limit (depth + 1) (broken (faultAt ts)) (.object [] (noKey ts) :: frames), [])
  | .text (.ok s) :: ts => after limit depth frames (.string s) ts
  | .text (.error d) :: ts => after limit depth frames (.damaged d) ts
  | .scalar v :: ts => after limit depth frames v ts
  | ts => (unwind limit depth (broken (faultAt ts)) frames, [])

/-- Goes on after a value inside the `depth` open containers. -/
def after (limit : Option Nat) (depth : Nat) (frames : List Frame) (v : Source Fault)
    (ts : List Token) : Source Fault × List Token :=
  match frames, ts with
  | [], ts => (v, ts)
  | .array items :: frames, .mark ',' :: ts =>
    value limit depth (.array (v :: items) :: frames) ts
  | .array items :: frames, .mark ']' :: ts =>
    after limit (depth - 1) frames ((Frame.array items).close limit (depth - 1) v none) ts
  | .object fields k :: frames, .mark ',' :: .text k' :: ts =>
    colon limit (depth - 1) frames ((k, v) :: fields) k' ts
  | .object fields k :: frames, .mark ',' :: ts =>
    (unwind limit depth (broken (faultAt ts)) (.object ((k, v) :: fields) (noKey ts) :: frames), [])
  | .object fields k :: frames, .mark '\x7d' :: ts =>
    after limit (depth - 1) frames ((Frame.object fields k).close limit (depth - 1) v none) ts
  | f :: frames, ts =>
    (unwind limit (depth - 1) (f.close limit (depth - 1) v (some (faultAt ts))) frames, [])

/-- Goes on after the key of an object inside the `depth` open containers; its earlier fields are
given. -/
def colon (limit : Option Nat) (depth : Nat) (frames : List Frame)
    (fields : List (Key Fault × Source Fault)) (k : Key Fault) :
    List Token → Source Fault × List Token
  | .mark ':' :: ts => value limit (depth + 1) (.object fields k :: frames) ts
  | ts => (unwind limit (depth + 1) (broken (faultAt ts)) (.object fields k :: frames), [])

end

/-- The source of a text, and the fault of what follows it. Containers that lie inside `limit`
others are too deep to be read. -/
def source (limit : Option Nat) (text : List Char) : Source Fault × Option Fault :=
  match value limit 0 [] (Token.ofChars text) with
  | (v, []) => (v, none)
  | (v, _ :: _) => (v, some .malformed)

/-- The value of a text that is one JSON value, at any depth, and nothing else. -/
def read (text : String) : Except Fault Json := do
  let (source, trailing) := source none text.toList
  let j ← source.value
  Source.check trailing
  return j

end QuickInfo.Json.Text
