import QuickInfo.Listing
import QuickInfo.Load

/-!
# Command line

Lists the declarations of a snapshot file: `quickinfo [--flags F] [--entity E] FILE`.
-/
namespace QuickInfo.CommandLine

structure Arguments where
  input : Option String := none
  flags : Option String := none
  entity : Option String := none
  deriving DecidableEq, Repr

/-- Why a command line is not run. -/
inductive Refusal where
  | help
  | usage
  deriving DecidableEq, Repr

def usageText : String := "Usage: quickinfo [--flags <flags>] [--entity <entity>] <input>\n"

/-- Whether a word is read as an option: a single hyphen is not. -/
def isOption (word : String) : Bool :=
  match word.toList with
  | '-' :: _ :: _ => true
  | _ => false

/-- What follows the start of a word. -/
def afterStart? (start word : String) : Option String :=
  if start.toList.isPrefixOf word.toList then
    some (String.ofList (word.toList.drop start.toList.length))
  else none

namespace Arguments

def withInput (a : Arguments) (word : String) : Except Refusal Arguments :=
  if a.input.isSome then .error .usage else .ok { a with input := some word }

def withFlags (a : Arguments) (word : String) : Except Refusal Arguments :=
  if a.flags.isSome then .error .usage else .ok { a with flags := some word }

def withEntity (a : Arguments) (word : String) : Except Refusal Arguments :=
  if a.entity.isSome then .error .usage else .ok { a with entity := some word }

/-- Reads words none of which is an option. -/
def readInputs (a : Arguments) : List String → Except Refusal Arguments
  | [] => .ok a
  | word :: words => do (← a.withInput word).readInputs words

/-- A word that is neither a separate option nor the value of one. -/
def readWord (a : Arguments) (word : String) : Except Refusal Arguments :=
  if word = "-h" ∨ word = "--help" then .error .help
  else
    match afterStart? "--flags=" word, afterStart? "--entity=" word with
    | some value, _ => a.withFlags value
    | _, some value => a.withEntity value
    | none, none => if isOption word then .error .usage else a.withInput word

/-- Reads the words of a command line. The value of an option follows it, or stands in the same word
after an equals sign; after `--` no word is an option. -/
def read (a : Arguments) : List String → Except Refusal Arguments
  | [] => .ok a
  | "--" :: words => a.readInputs words
  | ["--flags"] => .error .usage
  | ["--entity"] => .error .usage
  | "--flags" :: value :: words =>
    if isOption value then .error .usage else do (← a.withFlags value).read words
  | "--entity" :: value :: words =>
    if isOption value then .error .usage else do (← a.withEntity value).read words
  | word :: words => do (← a.readWord word).read words

end Arguments

/-- A failure with what lies behind it. -/
structure Report where
  top : String
  causes : List String

namespace Report

/-- A text with every line after the first indented. -/
def indentLines (indentation text : String) : String :=
  ("\n" ++ indentation).intercalate (Text.segments '\n' text)

def numbered : Nat → List String → List String
  | _, [] => []
  | n, cause :: causes =>
    ("    " ++ toString n ++ ": " ++ indentLines "       " cause) :: numbered (n + 1) causes

/-- The failure and its causes, numbered if there are several. -/
def text (r : Report) : String :=
  let causes := match r.causes with
    | [] => []
    | [cause] => ["    " ++ indentLines "    " cause]
    | causes => numbered 0 causes
  let tail := if causes.isEmpty then "" else "\n\nCaused by:\n" ++ "\n".intercalate causes
  "Error: " ++ r.top ++ tail ++ "\n"

end Report

/-- The sentences of the system for the error numbers of opening and reading a file. -/
def systemReasons : List (Nat × String) :=
  [(1, "Operation not permitted"), (2, "No such file or directory"), (5, "Input/output error"),
   (13, "Permission denied"), (20, "Not a directory"), (21, "Is a directory"),
   (24, "Too many open files"), (36, "File name too long"),
   (40, "Too many levels of symbolic links")]

/-- The reason for a failure with an error number. -/
def systemReason (number : Nat) : String :=
  (systemReasons.lookup number).getD "Unknown error" ++ " (os error " ++ toString number ++ ")"

/-- The end of a run. -/
structure Outcome where
  exit : Nat
  stdout : String := ""
  stderr : String := ""

def Refusal.outcome : Refusal → Outcome
  | .help => { exit := 0, stdout := usageText }
  | .usage => { exit := 2, stderr := usageText }

/-- The listing of a file with the given content, or the reason why it has none. -/
def list (f : Facets) (wanted : Option String) (path : String)
    (content : Except String ByteArray) : Except Report String := do
  let project ← ((content.mapError .unreadable).bind Project.ofBytes).mapError fun e =>
    ⟨"failed to load model from " ++ path, e.causes⟩
  (listing f project wanted).mapError fun e => ⟨e.context, [e.cause.message]⟩

/-- Runs a command line in a monad in which files can be read. The facets are read before the
file. -/
def run {m : Type → Type} [Monad m] (fileContent : String → m (Except String ByteArray))
    (words : List String) : m Outcome := do
  match Arguments.read {} words with
  | .error refusal => return refusal.outcome
  | .ok ⟨none, _, _⟩ => return Refusal.usage.outcome
  | .ok ⟨some path, flags, entity⟩ =>
    match Facets.ofText (flags.getD "standard") with
    | .error e => return { exit := 1, stderr := (⟨e.message, []⟩ : Report).text }
    | .ok f =>
      match list f entity path (← fileContent path) with
      | .ok text => return { exit := 0, stdout := text }
      | .error report => return { exit := 1, stderr := report.text }

end QuickInfo.CommandLine
