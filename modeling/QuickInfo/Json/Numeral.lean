import QuickInfo.Json.Source

/-!
# Numerals

The numbers of a JSON text. An integer of 64 bits is read exactly. Any other number is read from
its first digits, as many as fit into 64 bits, as a floating-point number that is multiplied or
divided once by a power of ten; it is out of range if the result is infinite.
-/
namespace QuickInfo.Json

/-- Why a text is not read: it is no JSON, or it ends too early. -/
inductive Fault where
  | malformed
  | cutShort
  deriving DecidableEq, Repr

/-- The fault of a text that should go on with something else. -/
def Fault.at : List Char → Fault
  | [] => .cutShort
  | _ :: _ => .malformed

/-- A written number: sign, digits before and after the point, and exponent. -/
structure Numeral where
  negative : Bool
  whole : List Char
  fraction : List Char
  exponent : Option Int

namespace Numeral

def digitValue (c : Char) : Nat := c.toNat - '0'.toNat

def natural (digits : List Char) : Nat :=
  digits.foldl (fun n c => 10 * n + digitValue c) 0

/-- A run of digits, at least one. -/
def digits (cs : List Char) : Except Fault (List Char × List Char) :=
  match cs.takeWhile Char.isDigit with
  | [] => .error (Fault.at cs)
  | ds => .ok (ds, cs.dropWhile Char.isDigit)

def sign : List Char → Bool × List Char
  | '-' :: cs => (true, cs)
  | cs => (false, cs)

/-- The digits before the point, which start with a zero only if they are a single zero. -/
def wholePart (cs : List Char) : Except Fault (List Char × List Char) := do
  let (ds, rest) ← digits cs
  match ds with
  | '0' :: _ :: _ => .error .malformed
  | ds => .ok (ds, rest)

def fractionPart : List Char → Except Fault (List Char × List Char)
  | '.' :: cs => digits cs
  | cs => .ok ([], cs)

def exponentDigits (negative : Bool) (cs : List Char) : Except Fault (Option Int × List Char) := do
  let (ds, rest) ← digits cs
  let n : Int := natural ds
  return (some (if negative then -n else n), rest)

def exponentPart : List Char → Except Fault (Option Int × List Char)
  | c :: cs =>
    if c = 'e' ∨ c = 'E' then
      match cs with
      | '+' :: cs => exponentDigits false cs
      | '-' :: cs => exponentDigits true cs
      | cs => exponentDigits false cs
    else .ok (none, c :: cs)
  | [] => .ok (none, [])

/-- Reads a numeral off the front of a text. -/
def scan (cs : List Char) : Except Fault (Numeral × List Char) := do
  let (negative, cs) := sign cs
  let (whole, cs) ← wholePart cs
  let (fraction, cs) ← fractionPart cs
  let (exponent, cs) ← exponentPart cs
  return (⟨negative, whole, fraction, exponent⟩, cs)

/-- A number is held in 64 bits. -/
def bound : Nat := Nat.pow 2 64

/-- Reads digits while the value stays below the bound: the value and the digits that are left. -/
def prefixValue (n : Nat) : List Char → Nat × List Char
  | [] => (n, [])
  | c :: cs =>
    let next := 10 * n + digitValue c
    if next < bound then prefixValue next cs else (n, c :: cs)

def powerOfTen (k : Nat) : Float := Float.ofScientific 1 false k

/-- The last power of ten among the floating-point numbers. -/
def lastPower : Nat := 308

/-- Divides by a power of ten, in steps where there is no such floating-point number. -/
def divide (x : Float) : Nat → Nat → Float
  | 0, k => x / powerOfTen (min k lastPower)
  | steps + 1, k =>
    if k ≤ lastPower then x / powerOfTen k
    else if x == 0 then x
    else divide (x / powerOfTen lastPower) steps (k - lastPower)

/-- `n · 10 ^ exponent`, if it is in range. -/
def scale (n : Nat) (exponent : Int) : Option Float :=
  let x := n.toUInt64.toFloat
  if x == 0 then some x
  else if exponent < 0 then some (divide x (exponent.natAbs / lastPower) exponent.natAbs)
  else if exponent ≤ lastPower then
    let y := x * powerOfTen exponent.toNat
    if y.isInf then none else some y
  else none

/-- The value of a numeral, if it is in range. -/
def number? (x : Numeral) : Option Number :=
  let (n, dropped) := prefixValue 0 x.whole
  if dropped.isEmpty ∧ x.fraction.isEmpty ∧ x.exponent.isNone ∧
      (!x.negative ∨ (0 < n ∧ n ≤ Nat.pow 2 63)) then
    some (.integer (if x.negative then -n else n))
  else
    let (m, ignored) := prefixValue n x.fraction
    let shift : Int := dropped.length - (x.fraction.length - ignored.length)
    (scale m (shift + x.exponent.getD 0)).map fun y => .real (if x.negative then -y else y)

theorem length_digits {cs ds rest : List Char} (h : digits cs = .ok (ds, rest)) :
    rest.length < cs.length := by
  unfold digits at h
  split at h
  · cases h
  · rename_i hne
    cases h
    have := congrArg List.length (List.takeWhile_append_dropWhile (p := Char.isDigit) (l := cs))
    rw [List.length_append] at this
    have hpos : 0 < (cs.takeWhile Char.isDigit).length := List.length_pos_iff.2 hne
    omega

theorem length_sign (cs : List Char) : (sign cs).2.length ≤ cs.length := by
  unfold sign
  split <;> simp

theorem length_wholePart {cs ds rest : List Char} (h : wholePart cs = .ok (ds, rest)) :
    rest.length < cs.length := by
  unfold wholePart at h
  cases hd : digits cs with
  | error e => simp [hd, bind, Except.bind] at h
  | ok p =>
    obtain ⟨ds', rest'⟩ := p
    simp only [hd, bind, Except.bind] at h
    have := length_digits hd
    split at h <;> cases h
    exact this

theorem length_fractionPart {cs ds rest : List Char} (h : fractionPart cs = .ok (ds, rest)) :
    rest.length ≤ cs.length := by
  unfold fractionPart at h
  split at h
  · have := length_digits h
    simp only [List.length_cons]
    omega
  · cases h
    exact Nat.le_refl _

theorem length_exponentDigits {b : Bool} {cs rest : List Char} {e : Option Int}
    (h : exponentDigits b cs = .ok (e, rest)) : rest.length < cs.length := by
  unfold exponentDigits at h
  cases hd : digits cs with
  | error e => simp [hd, bind, Except.bind] at h
  | ok p =>
    obtain ⟨ds', rest'⟩ := p
    simp only [hd, bind, Except.bind] at h
    cases h
    exact length_digits hd

theorem length_exponentPart {cs rest : List Char} {e : Option Int}
    (h : exponentPart cs = .ok (e, rest)) : rest.length ≤ cs.length := by
  unfold exponentPart at h
  split at h
  · split at h
    · split at h <;> have := length_exponentDigits h <;> simp only [List.length_cons] <;> omega
    · cases h
      exact Nat.le_refl _
  · cases h
    exact Nat.le_refl _

/-- A numeral has at least one character. -/
theorem length_scan {cs rest : List Char} {x : Numeral} (h : scan cs = .ok (x, rest)) :
    rest.length < cs.length := by
  unfold scan at h
  have hs := length_sign cs
  revert h
  generalize sign cs = s at hs
  obtain ⟨negative, cs₁⟩ := s
  intro h
  simp only [bind, Except.bind] at h
  cases hw : wholePart cs₁ with
  | error e => simp [hw] at h
  | ok p₁ =>
    obtain ⟨whole, cs₂⟩ := p₁
    simp only [hw] at h
    cases hf : fractionPart cs₂ with
    | error e => simp [hf] at h
    | ok p₂ =>
      obtain ⟨fraction, cs₃⟩ := p₂
      simp only [hf] at h
      cases he : exponentPart cs₃ with
      | error e => simp [he] at h
      | ok p₃ =>
        obtain ⟨exponent, cs₄⟩ := p₃
        simp only [he] at h
        cases h
        have h₁ := length_wholePart hw
        have h₂ := length_fractionPart hf
        have h₃ := length_exponentPart he
        simp only at hs
        omega

end Numeral

end QuickInfo.Json
