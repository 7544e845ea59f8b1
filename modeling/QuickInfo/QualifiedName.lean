import QuickInfo.Text.Segments

/-!
# Qualified names

The name of a type is its namespace and the path of names from the outermost enclosing type to the
type itself. It is written with dots in the namespace and after it and with plus signs in the path,
as in `Acme.Tools.Outer+Inner`.
-/
namespace QuickInfo

structure QualifiedName where
  ns : String
  path : List String
  deriving DecidableEq, Repr

namespace QualifiedName

/-- Puts a namespace and a dot before a name; the empty namespace adds nothing. -/
def qualify (ns name : String) : String :=
  if ns = "" then name else ns ++ "." ++ name

def text (q : QualifiedName) : String :=
  qualify q.ns ("+".intercalate q.path)

/-- The name with dots only. -/
def dotted (q : QualifiedName) : String :=
  Text.substitute '+' '.' q.text

/-- The list before and after the last occurrence of a character. -/
def splitLast? (c : Char) : List Char → Option (List Char × List Char)
  | [] => none
  | d :: cs =>
    match splitLast? c cs with
    | some (before, after) => some (d :: before, after)
    | none => if d = c then some ([], cs) else none

/-- Reads a name. The namespace ends at the last dot before the first plus sign. -/
def ofText (s : String) : QualifiedName :=
  let outer := s.toList.takeWhile (· != '+')
  let nested := s.toList.dropWhile (· != '+')
  match splitLast? '.' outer with
  | some (ns, name) =>
    ⟨String.ofList ns, Text.segments '+' (String.ofList (name ++ nested))⟩
  | none => ⟨"", Text.segments '+' s⟩

end QualifiedName

end QuickInfo
