import QuickInfo.Snapshot

/-!
# Loading projects

Projects from snapshots, which come as JSON values, texts or the bytes of a file.
-/
namespace QuickInfo

def Json.Fault.message : Json.Fault → String
  | .malformed => "the text is not JSON"
  | .cutShort => "the text ends too early"

def Json.Failure.message : Json.Failure Json.Fault → String
  | .mismatch m => m.message
  | .fault e => e.message

/-- Why no project is loaded: the file cannot be read, the snapshot is not decoded, or its types
cannot be added. -/
inductive LoadError where
  | unreadable (reason : String)
  | invalidJson (failure : Json.Failure Json.Fault)
  | refused (e : AddError)

namespace LoadError

/-- The report and what lies behind it, from the outside to the inside. -/
def causes : LoadError → List String
  | unreadable reason => ["IO error: " ++ reason, reason]
  | invalidJson failure => ["invalid model JSON: " ++ failure.message, failure.message]
  | refused e => [e.message]

def message (e : LoadError) : String := e.causes.headD ""

end LoadError

namespace Project

/-- Adds the types of a snapshot to an empty project. -/
def ofSnapshot (d : AssemblyDocument) : Except LoadError Project :=
  (ofDocument d).mapError .refused

def ofJson (j : Json) : Except LoadError Project := do
  ofSnapshot (← (Snapshot.ofJson (Snapshot.assembly .memory) j).mapError fun m =>
    .invalidJson (.mismatch m))

def ofText (text : String) : Except LoadError Project := do
  ofSnapshot (← (Snapshot.ofText text.toList).mapError .invalidJson)

def ofBytes (bytes : ByteArray) : Except LoadError Project :=
  match String.fromUTF8? bytes with
  | none => .error (.unreadable "stream did not contain valid UTF-8")
  | some text => ofText text

end Project

end QuickInfo
