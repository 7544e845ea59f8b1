import QuickInfo.Json.Numeral

/-!
# String literals

The strings of a JSON text. An escape that names half a surrogate pair is noticed by a reader but
not by one that passes over the string.
-/
namespace QuickInfo.Json.StringLiteral

def escape? : Char → Option Char
  | '"' => some '"'
  | '\\' => some '\\'
  | '/' => some '/'
  | 'b' => some '\x08'
  | 'f' => some '\x0c'
  | 'n' => some '\n'
  | 'r' => some '\r'
  | 't' => some '\t'
  | _ => none

def hexDigit? (c : Char) : Option Nat :=
  if c.isDigit then some (c.toNat - '0'.toNat)
  else if 'a' ≤ c ∧ c ≤ 'f' then some (c.toNat - 'a'.toNat + 10)
  else if 'A' ≤ c ∧ c ≤ 'F' then some (c.toNat - 'A'.toNat + 10)
  else none

def hex4? (a b c d : Char) : Option Nat := do
  return ((← hexDigit? a) * 16 + (← hexDigit? b)) * 256 + (← hexDigit? c) * 16 + (← hexDigit? d)

def isHighSurrogate (n : Nat) : Bool := 0xD800 ≤ n && n < 0xDC00

def isLowSurrogate (n : Nat) : Bool := 0xDC00 ≤ n && n < 0xE000

def ofSurrogates (high low : Nat) : Char :=
  Char.ofNat (0x10000 + (high - 0xD800) * 0x400 + (low - 0xDC00))

/-- The fault where four hexadecimal digits should follow and less than four characters do: the
text ends too early if not even four bytes are left. -/
def shortEscape (cs : List Char) : Fault :=
  if cs.foldl (fun n c => n + c.utf8Size) 0 < 4 then .cutShort else .malformed

/-- What follows the first half of a surrogate pair: the second half, or the fault of a reader. -/
def secondHalf : List Char → Except Fault Nat
  | '\\' :: 'u' :: a :: b :: c :: d :: _ =>
    match hex4? a b c d with
    | some n => if isLowSurrogate n then .ok n else .error .malformed
    | none => .error .malformed
  | '\\' :: 'u' :: cs => .error (shortEscape cs)
  | ['\\'] => .error .cutShort
  | [] => .error .cutShort
  | _ => .error .malformed

/-- A fault that ends the text; a reader has met `lone` before, if that is a fault. -/
def stop (lone : Option Fault) (e : Fault) : Key Fault × List Char :=
  (.error ⟨lone.getD e, lone.getD e, none, some e⟩, [])

def finish (done : List Char) (lone : Option Fault) : Key Fault :=
  match lone with
  | none => .ok (String.ofList done.reverse)
  | some e => .error ⟨e, e, none, none⟩

/-- Reads the rest of a string whose characters so far are `done`, in reverse; `lone` is the fault
of the first half of a pair that stands alone. -/
def scan (done : List Char) (lone : Option Fault) : List Char → Key Fault × List Char
  | [] => stop lone .cutShort
  | '"' :: cs => (finish done lone, cs)
  | '\\' :: 'u' :: a :: b :: c :: d :: cs =>
    match hex4? a b c d with
    | none => stop lone .malformed
    | some n =>
      if isLowSurrogate n then scan done (lone.or (some .malformed)) cs
      else if isHighSurrogate n then
        match secondHalf cs with
        | .error e => scan done (lone.or (some e)) cs
        | .ok m => scan (ofSurrogates n m :: done) lone (cs.drop 6)
      else scan (Char.ofNat n :: done) lone cs
  | '\\' :: 'u' :: cs => stop lone (shortEscape cs)
  | ['\\'] => stop lone .cutShort
  | '\\' :: c :: cs =>
    match escape? c with
    | some d => scan (d :: done) lone cs
    | none => stop lone .malformed
  | c :: cs => if c.toNat < 0x20 then stop lone .malformed else scan (c :: done) lone cs
termination_by cs => cs.length

theorem length_scan (done : List Char) (lone : Option Fault) (cs : List Char) :
    (scan done lone cs).2.length ≤ cs.length := by
  fun_induction scan done lone cs <;> simp_all [stop] <;> omega

end QuickInfo.Json.StringLiteral
