import QuickInfo.Text.Blank

/-!
# Shortest decimals

The fewest decimal digits that read back as a given binary64 number, found by exact arithmetic: a
decimal reads back as the number if it lies between the midpoints to the two neighbours.
-/
namespace QuickInfo.Decimal

/-- The finite binary64 number `± significand · 2 ^ exponent`. -/
structure Binary64 where
  negative : Bool
  significand : Nat
  exponent : Int

/-- Reads the fields of the interchange format. -/
def Binary64.ofBits (bits : UInt64) : Binary64 :=
  let fraction := bits.toNat % Nat.pow 2 52
  let biased := bits.toNat / Nat.pow 2 52 % Nat.pow 2 11
  { negative := bits.toNat / Nat.pow 2 63 = 1
    significand := if biased = 0 then fraction else Nat.pow 2 52 + fraction
    exponent := (max biased 1 : Nat) - 1075 }

/-- The fractions between `low / unit` and `high / unit` around `centre / unit`. -/
structure Interval where
  low : Nat
  centre : Nat
  high : Nat
  unit : Nat
  closed : Bool

/-- The reals that round to the number. Below a power of two the neighbour is half as far; the ends
belong to the interval if the significand is even. -/
def Binary64.interval (x : Binary64) : Interval :=
  let shift := x.exponent - 2
  let scale := Nat.pow 2 shift.toNat
  let below := if x.significand = Nat.pow 2 52 ∧ x.exponent > -1074 then 1 else 2
  { low := (4 * x.significand - below) * scale
    centre := 4 * x.significand * scale
    high := (4 * x.significand + 2) * scale
    unit := Nat.pow 2 (-shift).toNat
    closed := x.significand % 2 = 0 }

namespace Interval

/-- Whether `n · 10 ^ k` lies in the interval. -/
def contains (i : Interval) (n : Nat) (k : Int) : Bool :=
  let point := n * Nat.pow 10 k.toNat * i.unit
  let scale := Nat.pow 10 (-k).toNat
  if i.closed then i.low * scale ≤ point && point ≤ i.high * scale
  else i.low * scale < point && point < i.high * scale

/-- The multiple of `10 ^ k` in the interval that is nearest to the centre, the even one of two
equally near. -/
def nearest? (i : Interval) (k : Int) : Option Nat :=
  let step := Nat.pow 10 k.toNat * i.unit
  let centre := i.centre * Nat.pow 10 (-k).toNat
  let n := centre / step
  let before := centre - n * step
  let after := (n + 1) * step - centre
  let up := after < before || (after == before && n % 2 == 1)
  match i.contains n k, i.contains (n + 1) k with
  | true, true => some (if up then n + 1 else n)
  | true, false => some n
  | false, true => some (n + 1)
  | false, false => none

/-- The exponent of the leading decimal digit of the centre, for a centre above `10 ^ (-400)`. -/
def magnitude (i : Interval) : Int :=
  if i.unit ≤ i.centre then ((Nat.toDigits 10 (i.centre / i.unit)).length : Int) - 1
  else
    match (List.range 400).find? fun j => i.unit ≤ i.centre * Nat.pow 10 j with
    | some j => -(j : Int)
    | none => 0

end Interval

/-- Decimal digits with the exponent of the first of them. -/
structure Digits where
  digits : List Char
  exponent : Int

/-- The digits on the coarsest grid that has a point in the interval, seventeen at most. -/
def Interval.shortest (i : Interval) : Digits :=
  let magnitude := i.magnitude
  let hit := (List.range 17).findSome? fun (n : Nat) =>
    let k := magnitude - n
    (i.nearest? k).map fun c => (c, k)
  match hit with
  | none => ⟨['0'], 0⟩
  | some (c, k) =>
    let all := Nat.toDigits 10 c
    ⟨Text.dropEndWhile (· == '0') all, k + all.length - 1⟩

def Binary64.shortest (x : Binary64) : Digits :=
  if x.significand = 0 then ⟨['0'], 0⟩ else x.interval.shortest

/-- How digits become a text: positional if the exponent of the first digit is at least `least` and
below `bound`, else with an exponent after `mark`, which has the sign `plus` if it is not
negative. -/
structure Style where
  least : Int
  bound : Int
  mark : String
  plus : String

namespace Style

def positional (d : Digits) : List Char :=
  let point := d.exponent + 1
  if point ≤ 0 then '0' :: '.' :: (List.replicate (-point).toNat '0' ++ d.digits)
  else
    let whole := d.digits.take point.toNat
    let fraction := d.digits.drop point.toNat
    whole ++ List.replicate (point.toNat - whole.length) '0' ++
      '.' :: (if fraction.isEmpty then ['0'] else fraction)

def scientific (style : Style) (d : Digits) : List Char :=
  let mantissa := match d.digits with
    | [] => []
    | [c] => [c]
    | c :: cs => c :: '.' :: cs
  let sign := if d.exponent < 0 then "-" else style.plus
  mantissa ++ style.mark.toList ++ sign.toList ++ Nat.toDigits 10 d.exponent.natAbs

def text (style : Style) (x : Binary64) : String :=
  let d := x.shortest
  let unsigned :=
    if style.least ≤ d.exponent ∧ d.exponent < style.bound then positional d
    else style.scientific d
  String.ofList (if x.negative then '-' :: unsigned else unsigned)

end Style

end QuickInfo.Decimal
