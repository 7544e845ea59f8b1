import QuickInfo.Predefined
import QuickInfo.Proofs.Text.Endings
import QuickInfo.TypeSyntax

/-!
# Readable types

Types whose names cannot be taken for punctuation or for the words of the predefined types. Such a
type is given by a name, with a target before it and arguments after it, or it is another type with
a mark at its end.
-/
namespace QuickInfo

namespace Text

/-- The characters that stand around the names in the text of a type or a parameter list. -/
def punctuation : List Char := [' ', '.', '<', '>', ',', '[', ']', '(', ')', '*', '?']

/-- A text without punctuation. -/
def IsPlain (s : String) : Prop := ∀ c ∈ s.toList, c ∉ punctuation

/-- The characters of the text are tried, not all characters that there are. -/
instance (s : String) : Decidable (IsPlain s) :=
  List.decidableBAll (fun c => c ∉ punctuation) s.toList

/-- The text is empty or ends in punctuation, so that a name after it begins there. -/
def IsFence (r : List Char) : Prop := ∀ c ∈ r.getLast?, c ∈ punctuation

/-- A name at the end of a text is read as far as there is no punctuation. -/
theorem append_plain_inj {r r' : List Char} {s s' : String} (hr : IsFence r) (hr' : IsFence r')
    (hs : IsPlain s) (hs' : IsPlain s') (h : r ++ s.toList = r' ++ s'.toList) :
    r = r' ∧ s = s' := by
  obtain ⟨hfront, hname⟩ := append_inj_of_class (P := fun c => c ∉ punctuation)
    (fun c hc => not_not_intro (hr c hc)) (fun c hc => not_not_intro (hr' c hc)) hs hs' h
  exact ⟨hfront, String.toList_inj.1 hname⟩

end Text

open Text

namespace TypeSyntax

/-- The words of the predefined types. -/
def keywords : List String := Predefined.keywords.map Prod.snd

/-- A type whose names are neither empty nor contain punctuation, whose arrays have a dimension, and
in which the words of the predefined types stand for these types. -/
inductive Readable : TypeSyntax → Prop
  | primitive {word : String} (hword : word ∈ keywords) : Readable (.primitive word)
  | simple {name : String} {arguments : List TypeSyntax} (hne : name ≠ "") (hplain : IsPlain name)
      (hword : arguments = [] → name ∉ keywords) (harguments : ∀ t ∈ arguments, Readable t) :
      Readable (.simple name arguments)
  | member {target : TypeSyntax} {name : String} {arguments : List TypeSyntax}
      (htarget : Readable target) (hne : name ≠ "") (hplain : IsPlain name)
      (harguments : ∀ t ∈ arguments, Readable t) : Readable (.member target name arguments)
  | array {element : TypeSyntax} {rank : Nat} (helement : Readable element) (hrank : 1 ≤ rank) :
      Readable (.array element rank)
  | pointer {element : TypeSyntax} (helement : Readable element) : Readable (.pointer element)
  | nullable {element : TypeSyntax} (helement : Readable element) : Readable (.nullable element)

theorem plain_of_mem_keywords : ∀ word ∈ keywords, word ≠ "" ∧ IsPlain word := by decide

/-- The punctuation that the text of a type ends in. -/
def closing : TypeSyntax → Option Char
  | .primitive _ => none
  | .simple _ arguments => if arguments = [] then none else some '>'
  | .member _ _ arguments => if arguments = [] then none else some '>'
  | .array _ _ => some ']'
  | .pointer _ => some '*'
  | .nullable _ => some '?'

/-- A type that is given by a name, with its target, its name and its arguments. -/
inductive Named : TypeSyntax → Option TypeSyntax → String → List TypeSyntax → Prop
  | primitive {word : String} (hword : word ∈ keywords) : Named (.primitive word) none word []
  | simple {name : String} {arguments : List TypeSyntax}
      (hword : arguments = [] → name ∉ keywords) :
      Named (.simple name arguments) none name arguments
  | member (target : TypeSyntax) (name : String) (arguments : List TypeSyntax) :
      Named (.member target name arguments) (some target) name arguments

/-- The parts of a type that is given by a name say which type it is. -/
theorem Named.unique {t t' : TypeSyntax} {target : Option TypeSyntax} {name : String}
    {arguments : List TypeSyntax} (h : Named t target name arguments)
    (h' : Named t' target name arguments) : t = t' := by
  cases h with
  | primitive hword =>
    cases h' with
    | primitive _ => rfl
    | simple hnot => exact absurd hword (hnot rfl)
  | simple hnot =>
    cases h' with
    | primitive hword => exact absurd hword (hnot rfl)
    | simple _ => rfl
  | member => cases h'; rfl

/-- The parts of a readable type that is given by a name. -/
structure ReadableParts (target : Option TypeSyntax) (name : String)
    (arguments : List TypeSyntax) : Prop where
  name_ne : name ≠ ""
  name_plain : IsPlain name
  target_readable : ∀ t ∈ target, t.Readable
  arguments_readable : ∀ t ∈ arguments, t.Readable

theorem Named.readable {t : TypeSyntax} {target : Option TypeSyntax} {name : String}
    {arguments : List TypeSyntax} (h : Named t target name arguments)
    (hparts : ReadableParts target name arguments) : t.Readable := by
  obtain ⟨hne, hplain, htarget, harguments⟩ := hparts
  cases h with
  | primitive hword => exact .primitive hword
  | simple hword => exact .simple hne hplain hword harguments
  | member => exact .member (htarget _ rfl) hne hplain harguments

/-- A readable type that ends in a name or in arguments is given by a name. -/
theorem Readable.exists_named {t : TypeSyntax} (ht : t.Readable)
    (h : t.closing = none ∨ t.closing = some '>') : ∃ target name arguments,
      Named t target name arguments ∧ ReadableParts target name arguments := by
  cases ht with
  | primitive hword =>
    obtain ⟨hne, hplain⟩ := plain_of_mem_keywords _ hword
    exact ⟨_, _, _, .primitive hword, hne, hplain, by simp, by simp⟩
  | simple hne hplain hword harguments =>
    exact ⟨_, _, _, .simple hword, hne, hplain, by simp, harguments⟩
  | member htarget hne hplain harguments =>
    exact ⟨_, _, _, .member _ _ _, hne, hplain, by simpa using htarget, harguments⟩
  | array => simp [closing] at h
  | pointer => simp [closing] at h
  | nullable => simp [closing] at h

end TypeSyntax

end QuickInfo
