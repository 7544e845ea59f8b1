import QuickInfo.Text.GraphemeExtend
import QuickInfo.Text.Unprintable

/-!
# Quoted texts

A text between double quotes in which every character is visible on its own.
-/
namespace QuickInfo.Text

def inRanges (ranges : Array (Nat × Nat)) (c : Char) : Bool :=
  ranges.any fun r => r.1 ≤ c.toNat && c.toNat ≤ r.2

/-- The fillers of Hangul: letters that show nothing. -/
def isFiller (c : Char) : Bool :=
  c = '\u115f' || c = '\u1160' || c = '\u3164' || c = '\uffa0'

/-- The sound marks of halfwidth katakana: letters that extend the character before them, but take
a place of their own. -/
def isHalfwidthSoundMark (c : Char) : Bool :=
  c = '\uff9e' || c = '\uff9f'

/-- Whether a character joins the one before it. -/
def isExtending (c : Char) : Bool :=
  inRanges graphemeExtendRanges c && !isHalfwidthSoundMark c

/-- Whether a character can be shown as it is. -/
def isPlain (c : Char) : Bool :=
  !isExtending c && !isFiller c && !inRanges unprintableRanges c

/-- A character between quotes: with a backslash, by its number, or as it is. -/
def quoteChar (c : Char) : List Char :=
  match c with
  | '\x00' => ['\\', '0']
  | '\t' => ['\\', 't']
  | '\r' => ['\\', 'r']
  | '\n' => ['\\', 'n']
  | '\\' => ['\\', '\\']
  | '"' => ['\\', '"']
  | c =>
    if ' ' ≤ c ∧ c ≤ '~' then [c]
    else if isPlain c then [c]
    else '\\' :: 'u' :: '\x7b' :: (Nat.toDigits 16 c.toNat ++ ['\x7d'])

def quote (s : String) : String :=
  String.ofList ('"' :: (s.toList.flatMap quoteChar ++ ['"']))

end QuickInfo.Text
