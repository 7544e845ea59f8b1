import QuickInfo.FlagSet
import QuickInfo.Text.Blank

/-!
# Facets of a declaration

Which parts of a declaration are shown. A set of facets is read from a text of facet names and
presets, and written as the names joined by bars.
-/
namespace QuickInfo

/-- One part of a declaration text that can be shown or left out. -/
inductive Facet where
  | parameterNames
  | accessibility
  | qualifiedTypeNames
  | modifiers
  | qualifiedMemberNames
  | returnType
  | typeParameterList
  | parameterList
  | definitionKeyword
  deriving DecidableEq, Repr

namespace Facet

def all : List Facet :=
  [parameterNames, accessibility, qualifiedTypeNames, modifiers, qualifiedMemberNames, returnType,
   typeParameterList, parameterList, definitionKeyword]

def name : Facet → String
  | parameterNames => "ShowParameterNames"
  | accessibility => "ShowAccessibility"
  | qualifiedTypeNames => "UseFullyQualifiedTypeNames"
  | modifiers => "ShowModifiers"
  | qualifiedMemberNames => "UseFullyQualifiedMemberNames"
  | returnType => "ShowReturnType"
  | typeParameterList => "ShowTypeParameterList"
  | parameterList => "ShowParameterList"
  | definitionKeyword => "ShowDefinitionKeyword"

def weight : Facet → Nat
  | parameterNames => 0x1
  | accessibility => 0x2
  | qualifiedTypeNames => 0x4
  | modifiers => 0x8
  | qualifiedMemberNames => 0x80
  | returnType => 0x400
  | typeParameterList => 0x800
  | parameterList => 0x1000
  | definitionKeyword => 0x2000

instance : Flag Facet where
  all := all
  mem_all a := by cases a <;> decide
  name := name
  weight := weight

end Facet

/-- The facets that are shown. -/
abbrev Facets := FlagSet Facet

/-- A part of a facet text that names neither a facet nor a preset. -/
structure UnknownFacet where
  part : String
  deriving DecidableEq, Repr

def UnknownFacet.message (e : UnknownFacet) : String :=
  "unknown conversion flag: " ++ e.part

namespace Facets

/-- What a tooltip shows: everything but the qualification of names. -/
def standard : Facets := ⟨fun
  | .qualifiedTypeNames | .qualifiedMemberNames => false
  | _ => true⟩

def everything : Facets := ⟨fun _ => true⟩

/-- The words of a facet text with the sets that they stand for; presets come first. -/
def vocabulary : List (String × Facets) :=
  [("none", ∅), ("standard", standard), ("all", everything)] ++
    Facet.all.map fun f => (f.name, FlagSet.ofList [f])

/-- The lower case of an ASCII letter. The Kelvin sign is the only other character whose lower
case is an ASCII letter; all others stay as they are. -/
def foldCase (c : Char) : Char :=
  if c = '\u212a' then 'k' else c.toLower

/-- A word without hyphens and underscores, in lower case. -/
def normalize (cs : List Char) : List Char :=
  (cs.filter fun c => c != '-' && c != '_').map foldCase

def isSeparator (c : Char) : Bool := c == '|' || c == ','

/-- The words of a facet text: what stands between separators, trimmed, if anything is left. -/
def words (s : String) : List (List Char) :=
  ((s.toList.splitOnP isSeparator).map Text.trim).filter fun w => !w.isEmpty

def ofWord? (w : List Char) : Option Facets :=
  (vocabulary.find? fun entry => normalize entry.1.toList == normalize w).map (·.2)

def ofWord (w : List Char) : Except UnknownFacet Facets :=
  match ofWord? w with
  | some s => .ok s
  | none => .error ⟨String.ofList w⟩

/-- The union of the sets that the words stand for; the first unknown word is reported. -/
def ofWords : List (List Char) → Except UnknownFacet Facets
  | [] => .ok ∅
  | w :: ws => do
    let s ← ofWord w
    let t ← ofWords ws
    return s ∪ t

def ofText (s : String) : Except UnknownFacet Facets :=
  ofWords (words s)

/-- The names of the facets joined by bars, and `None` for the empty set. -/
def text (s : Facets) : String :=
  match s.toList with
  | [] => "None"
  | fs => " | ".intercalate (fs.map Facet.name)

end Facets

end QuickInfo
