/-!
# Segments

A text cut at every occurrence of a separator, and put together again.
-/
namespace QuickInfo.Text

/-- The parts of the text between the separators, at least one. -/
def segments (separator : Char) (s : String) : List String :=
  (s.toList.splitOn separator).map String.ofList

/-- The text with one character in place of another. -/
def substitute (old new : Char) (s : String) : String :=
  String.ofList (s.toList.map fun c => if c = old then new else c)

end QuickInfo.Text
