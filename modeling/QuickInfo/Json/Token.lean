import QuickInfo.Json.StringLiteral

/-!
# Tokens

A JSON text as a list of tokens. The list ends with the text or with the first token that breaks
off.
-/
namespace QuickInfo.Json

inductive Token where
  | mark (c : Char)
  | text (k : Key Fault)
  | scalar (v : Source Fault)

namespace Token

def isSpace (c : Char) : Bool := c == ' ' || c == '\n' || c == '\t' || c == '\r'

def isMark (c : Char) : Bool :=
  c == '[' || c == ']' || c == '\x7b' || c == '\x7d' || c == ',' || c == ':'

/-- A number that breaks off with a fault; it is no name, and one that is passed over is malformed
even if the text ends in it. -/
def brokenNumeral (e : Fault) : Token :=
  .scalar (.damaged ⟨e, .malformed, none, some .malformed⟩)

/-- A word that breaks off with a fault. -/
def brokenWord (v : Source Fault) (e : Fault) : Token :=
  .scalar (.damaged ⟨e, .malformed, nullFault, some e⟩)
where
  nullFault : Option Fault :=
    match v with
    | .null => some e
    | _ => none

/-- A number, or the damage where it is out of range and only a reader notices. -/
def ofNumeral (x : Numeral) : Token :=
  match x.number? with
  | some n => .scalar (.number n)
  | none => .scalar (.damaged ⟨.malformed, .malformed, none, none⟩)

/-- What is left of the text after a word. -/
def word : List Char → List Char → Except Fault (List Char)
  | [], cs => .ok cs
  | _ :: _, [] => .error .cutShort
  | w :: ws, c :: cs => if c = w then word ws cs else .error .malformed

/-- The words that start with a letter, as the rest of the word and its meaning. -/
def literal? : Char → Option (String × Source Fault)
  | 'n' => some ("ull", .null)
  | 't' => some ("rue", .bool true)
  | 'f' => some ("alse", .bool false)
  | _ => none

theorem length_word {ws cs rest : List Char} (h : word ws cs = .ok rest) :
    rest.length ≤ cs.length := by
  fun_induction word ws cs with
  | case1 => cases h; exact Nat.le_refl _
  | case2 => cases h
  | case3 ws c cs ih =>
    have := ih h
    simp only [List.length_cons]
    omega
  | case4 => cases h

/-- The tokens of a text. -/
def ofChars : List Char → List Token
  | [] => []
  | c :: cs =>
    if isSpace c then ofChars cs
    else if isMark c then .mark c :: ofChars cs
    else if c = '"' then
      .text (StringLiteral.scan [] none cs).1 :: ofChars (StringLiteral.scan [] none cs).2
    else if c = '-' ∨ c.isDigit then
      match _h : Numeral.scan (c :: cs) with
      | .error e => [brokenNumeral e]
      | .ok (x, rest) => ofNumeral x :: ofChars rest
    else
      match literal? c with
      | none => [.scalar (.damaged (.all .malformed))]
      | some (w, v) =>
        match _h : word w.toList cs with
        | .error e => [brokenWord v e]
        | .ok rest => .scalar v :: ofChars rest
termination_by cs => cs.length
decreasing_by
  · simp
  · simp
  · have := StringLiteral.length_scan [] none cs
    simp only [List.length_cons]
    omega
  · exact Numeral.length_scan _h
  · have := length_word _h
    simp only [List.length_cons]
    omega

end Token

end QuickInfo.Json
