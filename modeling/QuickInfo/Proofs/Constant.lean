import Mathlib
import QuickInfo.Header
import QuickInfo.Proofs.Text.Trimming

/-!
# Constants in declarations

The declaration of a constant ends in the text of its value, whatever that text looks like at its
end. A value is read back from its text: a literal goes up to the first quote that is not escaped,
and the characters before it are those of the value, some of them as simple escape sequences of C#.
-/
namespace QuickInfo

open Text

namespace Constant

/-- The simple escape sequences of C#: what a character stands for behind a backslash. -/
def simpleEscapes : List (Char × Char) :=
  [('\'', '\''), ('"', '"'), ('\\', '\\'), ('0', '\x00'), ('a', '\x07'), ('b', '\x08'),
   ('f', '\x0c'), ('n', '\n'), ('r', '\r'), ('t', '\t'), ('v', '\x0b')]

/-- The characters that a literal has in an escape sequence only. -/
def controls : List Char := ['\r', '\n', '\t', '\x00']

/-- Reads up to the first quote that is not escaped: what the characters before it stand for, and
what follows it. -/
def readTo? (quote : Char) : List Char → Option (List Char × List Char)
  | [] => none
  | ['\\'] => none
  | '\\' :: c :: cs => do
    let d ← simpleEscapes.lookup c
    let (value, rest) ← readTo? quote cs
    return (d :: value, rest)
  | c :: cs =>
    if c = quote then some ([], cs)
    else do
      let (value, rest) ← readTo? quote cs
      return (c :: value, rest)

/-- The constant with the given text. -/
def ofText? (s : String) : Option Constant :=
  match s.toList with
  | '\'' :: cs =>
    match readTo? '\'' cs with
    | some ([c], []) => some (.char c)
    | _ => none
  | '"' :: cs =>
    match readTo? '"' cs with
    | some (value, []) => some (.string (String.ofList value))
    | _ => none
  | _ =>
    if s = "null" then some .null
    else if s = "true" then some (.bool true)
    else if s = "false" then some (.bool false)
    else s.toInt?.map .integer

/-- The text is a literal between quotes: it has no raw control characters, its last character is
the first quote that is not escaped, and what stands before that is read as the value. -/
def IsLiteral (quote : Char) (value : List Char) (text : String) : Prop :=
  (∀ c ∈ text.toList, c ∉ controls) ∧
    ∃ body, text.toList = quote :: (body ++ [quote]) ∧
      ∀ rest, readTo? quote (body ++ quote :: rest) = some (value, rest)

section Reading

variable {quote c d : Char} {cs : List Char}

theorem readTo?_escaped (h : simpleEscapes.lookup c = some d) :
    readTo? quote ('\\' :: c :: cs) = (readTo? quote cs).map fun r => (d :: r.1, r.2) := by
  rw [readTo?, h]
  cases readTo? quote cs <;> rfl

theorem readTo?_plain (hc : c ≠ '\\') (hq : c ≠ quote) :
    readTo? quote (c :: cs) = (readTo? quote cs).map fun r => (c :: r.1, r.2) := by
  have hstep : readTo? quote (c :: cs) = (do
      let (value, rest) ← readTo? quote cs
      return (c :: value, rest)) := by
    simp [readTo?, hc, hq]
  rw [hstep]
  cases readTo? quote cs <;> rfl

theorem readTo?_quote (hq : quote ≠ '\\') : readTo? quote (quote :: cs) = some ([], cs) := by
  simp [readTo?, hq]

end Reading

section Literal

variable {quote : Char} (hquote : quote = '\'' ∨ quote = '"')

include hquote

theorem quote_ne_backslash : quote ≠ '\\' := by
  rcases hquote with rfl | rfl <;> decide

/-- A character of a literal is written as it is or as an escape sequence. -/
theorem escape_cases (c : Char) :
    (escape quote c = [c] ∧ c ≠ '\\' ∧ c ≠ quote ∧ c ∉ controls) ∨
      ∃ e, escape quote c = ['\\', e] ∧ simpleEscapes.lookup e = some c ∧ e ∉ controls := by
  unfold escape
  split
  · exact .inr ⟨'\\', rfl, rfl, by decide⟩
  · exact .inr ⟨'n', rfl, rfl, by decide⟩
  · exact .inr ⟨'r', rfl, rfl, by decide⟩
  · exact .inr ⟨'t', rfl, rfl, by decide⟩
  · exact .inr ⟨'0', rfl, rfl, by decide⟩
  · next hbackslash hnewline hreturn htab hnul =>
    by_cases hc : c = quote
    · rw [if_pos hc, hc]
      refine .inr ⟨quote, rfl, ?_⟩
      rcases hquote with rfl | rfl <;> decide
    · rw [if_neg hc]
      refine .inl ⟨rfl, hbackslash, hc, ?_⟩
      simp only [controls, List.mem_cons, List.not_mem_nil, or_false, not_or]
      exact ⟨hreturn, hnewline, htab, hnul⟩

/-- What a character is written as is read as the character. -/
theorem readTo?_escape (c : Char) (cs : List Char) :
    readTo? quote (escape quote c ++ cs) =
      (readTo? quote cs).map fun r => (c :: r.1, r.2) := by
  rcases escape_cases hquote c with ⟨hplain, hc, hq, -⟩ | ⟨e, hescape, he, -⟩
  · rw [hplain]
    exact readTo?_plain hc hq
  · rw [hescape]
    exact readTo?_escaped he

theorem readTo?_flatMap_escape (value rest : List Char) :
    readTo? quote (value.flatMap (escape quote) ++ quote :: rest) = some (value, rest) := by
  induction value with
  | nil => exact readTo?_quote (quote_ne_backslash hquote)
  | cons c value ih =>
    rw [List.flatMap_cons, List.append_assoc, readTo?_escape hquote, ih, Option.map_some]

theorem not_mem_controls_of_mem_escape {c d : Char} (hd : d ∈ escape quote c) : d ∉ controls := by
  rcases escape_cases hquote c with ⟨hplain, -, -, hc⟩ | ⟨e, hescape, -, he⟩
  · rw [hplain, List.mem_singleton] at hd
    exact hd ▸ hc
  · rw [hescape, List.mem_cons, List.mem_singleton] at hd
    rcases hd with rfl | rfl
    · decide
    · exact he

/-- Every list of characters has a literal, which is read back. -/
theorem isLiteral_literal (value : List Char) : IsLiteral quote value (literal quote value) := by
  have hlist : (literal quote value).toList = quote :: (value.flatMap (escape quote) ++ [quote]) :=
    String.toList_ofList
  refine ⟨?_, value.flatMap (escape quote), hlist, readTo?_flatMap_escape hquote value⟩
  have hq : quote ∉ controls := by
    rcases hquote with rfl | rfl <;> decide
  intro d hd
  rw [hlist, List.mem_cons, List.mem_append, List.mem_singleton] at hd
  rcases hd with rfl | hd | rfl
  · exact hq
  · obtain ⟨c, -, hd⟩ := List.mem_flatMap.1 hd
    exact not_mem_controls_of_mem_escape hquote hd
  · exact hq

end Literal

theorem mem_repr {n : Int} {c : Char} (hc : c ∈ n.repr.toList) : c = '-' ∨ c.isDigit := by
  have hdigits : ∀ m : Nat, c ∈ m.repr.toList → c.isDigit := by
    intro m hm
    rw [Nat.repr_eq_ofList_toDigits, String.toList_ofList] at hm
    exact Nat.isDigit_of_mem_toDigits (by decide) (by decide) hm
  rw [Int.repr_eq_if] at hc
  split at hc
  · exact .inr (hdigits _ hc)
  · rw [String.toList_append, List.mem_append] at hc
    rcases hc with hc | hc
    · exact .inl (List.mem_singleton.1 hc)
    · exact .inr (hdigits _ hc)

/-- A text with a character that no integer has is not that of an integer. -/
theorem repr_ne {n : Int} {s : String} {c : Char} (hc : c ∈ s.toList)
    (h : ¬(c = '-' ∨ c.isDigit)) : n.repr ≠ s :=
  fun heq => h (mem_repr (heq ▸ hc))

theorem ofText?_integer (n : Int) : ofText? (integer n).text = some (integer n) := by
  have htext : (integer n).text = n.repr := rfl
  rw [htext, ofText?]
  split
  · next cs hcs => exact absurd (mem_repr (hcs ▸ List.mem_cons_self)) (by decide)
  · next cs hcs => exact absurd (mem_repr (hcs ▸ List.mem_cons_self)) (by decide)
  · have hnull : n.repr ≠ "null" := repr_ne (c := 'n') (by decide) (by decide)
    have htrue : n.repr ≠ "true" := repr_ne (c := 't') (by decide) (by decide)
    have hfalse : n.repr ≠ "false" := repr_ne (c := 'f') (by decide) (by decide)
    rw [if_neg hnull, if_neg htrue, if_neg hfalse, Int.toInt?_repr, Option.map_some]

/-- A constant is read back from its text. -/
theorem ofText?_text (v : Constant) : ofText? v.text = some v := by
  cases v with
  | null => rfl
  | bool b => cases b <;> rfl
  | integer n => exact ofText?_integer n
  | char c =>
    have hread := readTo?_flatMap_escape (.inl rfl) [c] []
    simp only [text, ofText?, literal, String.toList_ofList, hread]
  | string s =>
    have hread := readTo?_flatMap_escape (.inr rfl) s.toList []
    simp only [text, ofText?, literal, String.toList_ofList, hread, String.ofList_toList]

end Constant

/-- The characters that end the statement of a variable. -/
def isStatementEnd (c : Char) : Bool := c == ';' || c == '\r' || c == '\n'

theorem isDigit_ne_statementEnd {c : Char} (h : c.isDigit) : isStatementEnd c = false := by
  rw [Bool.eq_false_iff]
  intro hend
  simp only [isStatementEnd, Bool.or_eq_true, beq_iff_eq] at hend
  rcases hend with (rfl | rfl) | rfl <;> simp at h

namespace Constant

/-- The text of a constant does not end like a statement, whatever the value is. -/
theorem endsOutside_text (v : Constant) : EndsOutside isStatementEnd v.text := by
  have hliteral : ∀ quote value, isStatementEnd quote = false →
      EndsOutside isStatementEnd (literal quote value) := by
    intro quote value hquote c hc
    rw [literal, String.toList_ofList, ← List.cons_append, List.getLast?_concat] at hc
    exact Option.some.inj hc ▸ hquote
  cases v with
  | null => decide
  | bool b => cases b <;> decide
  | integer n =>
    intro c hc
    rcases mem_repr (List.mem_of_getLast? hc) with rfl | hdigit
    · rfl
    · exact isDigit_ne_statementEnd hdigit
  | char c => exact hliteral '\'' [c] rfl
  | string s => exact hliteral '"' s.toList rfl

end Constant

/-- The text of a statement without its end. -/
theorem trimEndOf_statement {s : String} (h : EndsOutside isStatementEnd s) :
    trimEndOf isStatementEnd (s ++ ";" ++ "\n") = s := by
  rw [String.append_assoc, trimEndOf_append h]
  exact String.append_empty

namespace Variable

/-- The declaration of a variable up to its name. -/
def frontText (f : Facets) (p : Project) (v : Variable) : String :=
  Modifiers.text (if f.switches.modifiers && v.isConst then .ofList [.entity .const] else ∅) ++
    referenceText f p v.type ++ " " ++ v.name

/-- The value of a constant behind its name. -/
def valueText (v : Variable) : String :=
  match (if v.isConst then v.value else none) with
  | none => ""
  | some value => " = " ++ value.text

theorem endsOutside_frontText {v : Variable} (h : EndsOutside isStatementEnd v.name) (f : Facets)
    (p : Project) : EndsOutside isStatementEnd (v.frontText f p) := by
  have hspace : EndsOutside isStatementEnd " " := by decide
  exact (hspace.append_left (by decide) _).append h

theorem endsOutside_valueText (v : Variable) : EndsOutside isStatementEnd v.valueText := by
  rw [valueText]
  split
  · decide
  · have hsign : EndsOutside isStatementEnd " = " := by decide
    exact hsign.append (Constant.endsOutside_text _)

end Variable

/-- A variable without modifier is written as a statement, of which only the end is left out. -/
theorem variableText_of_statement {v : Variable} (hmodifier : v.modifier = none)
    (hname : EndsOutside isStatementEnd v.name) (f : Facets) (p : Project) :
    variableText f p v = v.frontText f p ++ v.valueText := by
  have hstatement : Spacing.standard.variableDeclaration (f.switches.declareVariable p v) =
      v.frontText f p ++ v.valueText ++ ";" ++ "\n" := by
    rw [Switches.declareVariable, hmodifier, Variable.valueText]
    cases if v.isConst then v.value else none <;> rfl
  have hends := (Variable.endsOutside_frontText hname f p).append v.endsOutside_valueText
  calc variableText f p v
      = trimEndOf isStatementEnd (v.frontText f p ++ v.valueText ++ ";" ++ "\n") := by
        rw [variableText, hstatement]
        rfl
    _ = v.frontText f p ++ v.valueText := trimEndOf_statement hends

/-- The declaration of a constant is that of the constant without value, an equals sign and the
complete text of the value. Characters and strings are written as literals, and different constants
have different texts. -/
theorem constants_read_back :
    (∀ f p {v : Variable}, v.isConst = true → v.modifier = none →
      EndsOutside isStatementEnd v.name → ∀ value,
        variableText f p { v with value := some value } =
          variableText f p { v with value := none } ++ " = " ++ Constant.text value) ∧
      (∀ c, Constant.IsLiteral '\'' [c] (Constant.char c).text) ∧
      (∀ s, Constant.IsLiteral '"' s.toList (Constant.string s).text) ∧
      (∀ v : Constant, Constant.ofText? v.text = some v) ∧
      ∀ v w : Constant, v.text = w.text ↔ v = w := by
  refine ⟨?_, fun c => Constant.isLiteral_literal (.inl rfl) [c],
    fun s => Constant.isLiteral_literal (.inr rfl) s.toList, Constant.ofText?_text, ?_⟩
  · intro f p v hconst hmodifier hname value
    have htext : ∀ value, variableText f p { v with value := value } =
        v.frontText f p ++ Variable.valueText { v with value := value } := by
      intro value
      exact variableText_of_statement (v := { v with value := value }) hmodifier hname f p
    have hnone : Variable.valueText { v with value := none } = "" := by
      rw [Variable.valueText, hconst]
      rfl
    have hsome : Variable.valueText { v with value := some value } = " = " ++ value.text := by
      rw [Variable.valueText, hconst]
      rfl
    rw [htext, htext, hnone, hsome, String.append_empty, String.append_assoc]
  · intro v w
    constructor
    · intro htext
      have hv := Constant.ofText?_text v
      rw [htext, Constant.ofText?_text] at hv
      exact (Option.some.inj hv).symm
    · rintro rfl
      rfl

/-- A constant without value. -/
def bannerVariable : Variable where
  name := "Banner"
  type := .named "System.String" []
  isConst := true

/-- The value has a quote behind a backslash and a digit behind the character zero, and it ends like
a statement. -/
theorem constants_read_back_banner :
    bannerVariable.isConst = true ∧ bannerVariable.modifier = none ∧
      EndsOutside isStatementEnd bannerVariable.name ∧
      variableText .standard ∅ { bannerVariable with value := some (.string "\\\"\x007;\n") } =
        "const string Banner = \"\\\\\\\"\\07;\\n\"" := by
  have hname : EndsOutside isStatementEnd bannerVariable.name := by decide
  have hfront : variableText .standard ∅ { bannerVariable with value := none } =
      "const string Banner" := by decide +kernel
  have hvalue : (Constant.string "\\\"\x007;\n").text = "\"\\\\\\\"\\07;\\n\"" := by
    decide +kernel
  obtain ⟨hconstant, -⟩ := constants_read_back
  refine ⟨rfl, rfl, hname, ?_⟩
  rw [hconstant .standard ∅ rfl rfl hname, hfront, hvalue]
  rfl

end QuickInfo
