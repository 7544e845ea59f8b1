/-!
# Constants

Compile-time values and their literals.
-/
namespace QuickInfo

inductive Constant where
  | null
  | bool (b : Bool)
  | integer (n : Int)
  | char (c : Char)
  | string (s : String)
  deriving DecidableEq, Repr

namespace Constant

/-- A character of a literal between the given quotes. -/
def escape (quote c : Char) : List Char :=
  match c with
  | '\\' => ['\\', '\\']
  | '\n' => ['\\', 'n']
  | '\r' => ['\\', 'r']
  | '\t' => ['\\', 't']
  | '\x00' => ['\\', '0']
  | c => if c = quote then ['\\', c] else [c]

def literal (quote : Char) (cs : List Char) : String :=
  String.ofList (quote :: (cs.flatMap (escape quote) ++ [quote]))

def text : Constant → String
  | .null => "null"
  | .bool b => if b then "true" else "false"
  | .integer n => toString n
  | .char c => literal '\'' [c]
  | .string s => literal '"' s.toList

end Constant

end QuickInfo
