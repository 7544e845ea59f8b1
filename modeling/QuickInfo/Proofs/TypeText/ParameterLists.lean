import QuickInfo.Declaration.Build
import QuickInfo.Proofs.TypeText.Reading

/-!
# Reading parameter lists back

A parameter list of readable types says which parameters it has, with their modifiers and types and,
if they are shown, their names. Two overloads are shown alike only if they are declared alike.
-/
namespace QuickInfo

open Text

/-- A parameter of a readable type. Its name is shown or not, and has no punctuation if it is. -/
structure ParameterDeclaration.Readable (shown : Bool) (a : ParameterDeclaration) : Prop where
  type_readable : a.type.Readable
  name_shown : a.name.isSome = shown
  name_plain : ∀ name ∈ a.name, IsPlain name

namespace ParameterModifier

theorem plain_name (m : ParameterModifier) :
    Enumeration.name m ≠ "" ∧ IsPlain (Enumeration.name m) := by
  cases m <;> decide

theorem name_inj {m m' : ParameterModifier} (h : Enumeration.name m = Enumeration.name m') :
    m = m' := by
  revert h
  cases m <;> cases m' <;> decide

end ParameterModifier

namespace Spacing

/-- Where a parameter may begin: at the start of the list or behind a comma and a space. -/
def OpensParameter (r : List Char) : Prop := MayStand (fun y => y = []) [',', ' '] r

theorem OpensParameter.opensType {r : List Char} (h : OpensParameter r) : OpensType r := by
  rcases h with rfl | ⟨z, rfl⟩
  · simp [OpensType]
  · simp [OpensType]

/-- The word before a parameter is read back. -/
theorem modifier_inj {r r' : List Char} (hr : OpensParameter r) (hr' : OpensParameter r')
    {m m' : Option ParameterModifier}
    (h : r ++ (ParameterModifier.text m).toList = r' ++ (ParameterModifier.text m').toList) :
    r = r' ∧ m = m' := by
  have hword : ∀ {r r' : List Char} {m : ParameterModifier}, OpensParameter r → OpensParameter r' →
      r ≠ r' ++ (ParameterModifier.text (some m)).toList := by
    intro r r' m hr hr' h
    obtain ⟨hne, hplain⟩ := m.plain_name
    rw [ParameterModifier.text, String.toList_append, ← List.append_assoc] at h
    rcases hr with rfl | ⟨z, rfl⟩
    · simp at h
    · -- the comma before the space is no part of the word
      rw [List.append_cons] at h
      have hcomma : IsFence (z ++ [',']) := by simp [IsFence, punctuation]
      obtain ⟨-, hempty⟩ := append_plain_inj (s := "") hcomma hr'.opensType.isFence (by decide)
        hplain ((List.append_nil _).trans (List.append_cancel_right h))
      exact hne hempty.symm
  cases m with
  | none =>
    rw [ParameterModifier.text, String.toList_empty, List.append_nil] at h
    cases m' with
    | none => exact ⟨by simpa [ParameterModifier.text] using h, rfl⟩
    | some m' => exact absurd h (hword hr hr')
  | some m =>
    cases m' with
    | none => exact absurd (by simpa [ParameterModifier.text] using h.symm) (hword hr' hr)
    | some m' =>
      simp only [ParameterModifier.text, String.toList_append, ← List.append_assoc] at h
      obtain ⟨hrr, hname⟩ := append_plain_inj hr.opensType.isFence hr'.opensType.isFence
        m.plain_name.2 m'.plain_name.2 (List.append_cancel_right h)
      rw [ParameterModifier.name_inj hname]
      exact ⟨hrr, rfl⟩

variable {o : Spacing}

/-- A parameter is read back, if it is known whether its name is shown. -/
theorem parameter_inj {shown : Bool} {a b : ParameterDeclaration} (ha : a.Readable shown)
    (hb : b.Readable shown) {r r' : List Char} (hr : OpensParameter r) (hr' : OpensParameter r')
    (h : r ++ (o.parameter a).toList = r' ++ (o.parameter b).toList) : r = r' ∧ a = b := by
  obtain ⟨m, t, name⟩ := a
  obtain ⟨m', t', name'⟩ := b
  obtain ⟨ht, hshown, hplain⟩ := ha
  obtain ⟨ht', hshown', hplain'⟩ := hb
  have hopens : ∀ {r : List Char} {m : Option ParameterModifier}, OpensParameter r →
      OpensType (r ++ (ParameterModifier.text m).toList) := by
    intro r m hr
    cases m with
    | none => simpa [ParameterModifier.text] using hr.opensType
    | some m => simp [ParameterModifier.text, OpensType]
  have hrest : ∀ {r r'}, OpensParameter r → OpensParameter r' →
      r ++ (ParameterModifier.text m).toList ++ (o.type t).toList =
        r' ++ (ParameterModifier.text m').toList ++ (o.type t').toList →
      r = r' ∧ m = m' ∧ t = t' := by
    intro r r' hr hr' h
    obtain ⟨hfront, rfl⟩ := readsBack ht ht' (hopens hr) (hopens hr') h
    obtain ⟨rfl, rfl⟩ := modifier_inj hr hr' hfront
    exact ⟨rfl, rfl, rfl⟩
  cases name with
  | none =>
    cases name' with
    | none =>
      obtain ⟨hrr, rfl, rfl⟩ := hrest hr hr' (by simpa [parameter] using h)
      exact ⟨hrr, rfl⟩
    | some name' => exact absurd (hshown.trans hshown'.symm) (by simp)
  | some name =>
    cases name' with
    | none => exact absurd (hshown.trans hshown'.symm) (by simp)
    | some name' =>
      simp only [parameter, String.toList_append, ← List.append_assoc] at h
      obtain ⟨hfront, rfl⟩ := append_plain_inj (by simp [IsFence, punctuation])
        (by simp [IsFence, punctuation]) (hplain _ rfl) (hplain' _ rfl) h
      obtain ⟨hrr, rfl, rfl⟩ := hrest hr hr' (List.append_cancel_right hfront)
      exact ⟨hrr, rfl⟩

theorem toList_parameters_cons (a : ParameterDeclaration) (as : List ParameterDeclaration) :
    (o.parameters (a :: as)).toList =
      (o.parameter a).toList ++ following [',', ' '] (fun a => (o.parameter a).toList) as := by
  rw [parameters, commaSeparated, String.toList_intercalate, List.map_map]
  exact intercalate_map_cons _ _ a as

theorem parameters_cons_ne_nil {shown : Bool} {a : ParameterDeclaration} (ha : a.Readable shown)
    (as : List ParameterDeclaration) : (o.parameters (a :: as)).toList ≠ [] := by
  obtain ⟨c, hc, -⟩ := closing_of_getLast? (o := o) ha.type_readable
  have hne : (o.type a.type).toList ≠ [] := by
    intro hnil
    rw [hnil] at hc
    cases hc
  simp [toList_parameters_cons, parameter, hne]

/-- A parameter list is read back. -/
theorem parameters_inj {shown : Bool} {as bs : List ParameterDeclaration}
    (has : ∀ a ∈ as, a.Readable shown) (hbs : ∀ b ∈ bs, b.Readable shown)
    (h : o.parameters as = o.parameters bs) : as = bs := by
  have htexts := congrArg String.toList h
  cases as with
  | nil =>
    cases bs with
    | nil => rfl
    | cons b bs => exact absurd htexts.symm (parameters_cons_ne_nil (hbs b (by simp)) bs)
  | cons a as =>
    cases bs with
    | nil => exact absurd htexts (parameters_cons_ne_nil (has a (by simp)) as)
    | cons b bs =>
      rw [toList_parameters_cons, toList_parameters_cons] at htexts
      exact (list_inj (S := fun y => y = []) (by simp)
        (fun c hc d hd r r' hr hr' => parameter_inj (has c hc) (hbs d hd) hr hr') rfl rfl htexts).2

end Spacing

/-- A parameter whose type is readable as it is declared, and whose name is plain if it is shown. -/
structure Switches.Readable (s : Switches) (p : Project) (a : Parameter) : Prop where
  type_readable : (s.declareParameter p a).type.Readable
  name_plain : s.parameterNames = true → IsPlain a.name

theorem Switches.Readable.declareParameter {s : Switches} {p : Project} {a : Parameter}
    (h : s.Readable p a) : (s.declareParameter p a).Readable s.parameterNames where
  type_readable := h.type_readable
  name_shown := by cases hs : s.parameterNames <;> simp [Switches.declareParameter, hs]
  name_plain := by
    intro name hname
    cases hs : s.parameterNames with
    | false => simp [Switches.declareParameter, hs] at hname
    | true =>
      obtain rfl : a.name = name := by simpa [Switches.declareParameter, hs] using hname
      exact h.name_plain hs

/-- Under every spacing, readable types with the same text are the same, and so are parameter lists
with the same text, if their names are all shown or all hidden. Two members have the same parameter
list only if the modifiers, types and shown names of their parameters are the same. -/
theorem readable_texts_unique (o : Spacing) :
    (∀ {t t' : TypeSyntax}, t.Readable → t'.Readable → o.type t = o.type t' → t = t') ∧
      (∀ {shown : Bool} {as bs : List ParameterDeclaration}, (∀ a ∈ as, a.Readable shown) →
        (∀ b ∈ bs, b.Readable shown) → o.parameters as = o.parameters bs → as = bs) ∧
      ∀ {s : Switches} {p : Project} {as bs : List Parameter}, (∀ a ∈ as, s.Readable p a) →
        (∀ b ∈ bs, s.Readable p b) →
        o.parameters (as.map (s.declareParameter p)) = o.parameters (bs.map (s.declareParameter p)) →
        as.map (s.declareParameter p) = bs.map (s.declareParameter p) := by
  refine ⟨Spacing.type_inj, Spacing.parameters_inj, ?_⟩
  intro s p as bs has hbs h
  have hreadable : ∀ {cs : List Parameter}, (∀ c ∈ cs, s.Readable p c) →
      ∀ a ∈ cs.map (s.declareParameter p), a.Readable s.parameterNames := by
    intro cs hcs a ha
    obtain ⟨c, hc, rfl⟩ := List.mem_map.1 ha
    exact (hcs c hc).declareParameter
  exact Spacing.parameters_inj (hreadable has) (hreadable hbs) h

/-- An enumerator of tables. -/
def enumeratorSyntax : TypeSyntax :=
  .nullable (.member (.simple "Dictionary" [.primitive "string", .array (.simple "T" []) 2])
    "Enumerator" [])

/-- A table that is passed by reference. -/
def tableParameter : Parameter := ⟨"table", .byReference (.array (.typeParameter "T") 2), none⟩

/-- A table with the word `ref` before it. -/
def refTableParameter : Parameter := ⟨"table", .array (.typeParameter "T") 2, some .ref⟩

/-- The text of the enumerator is that of no other readable type. The two parameters have the same
text, and they are declared alike. -/
theorem readable_texts_unique_table :
    enumeratorSyntax.Readable ∧
      (∀ {t : TypeSyntax}, t.Readable →
        Spacing.standard.type t = "Dictionary<string, T[,]>.Enumerator?" → t = enumeratorSyntax) ∧
      ({} : Switches).Readable ∅ tableParameter ∧ ({} : Switches).Readable ∅ refTableParameter ∧
      ({} : Switches).declareParameter ∅ tableParameter =
        ({} : Switches).declareParameter ∅ refTableParameter := by
  have harray : (TypeSyntax.array (.simple "T" []) 2).Readable :=
    .array (.simple (by decide) (by decide) (by decide) (by simp)) (by decide)
  have hdictionary : (TypeSyntax.simple "Dictionary"
      [.primitive "string", .array (.simple "T" []) 2]).Readable := by
    refine .simple (by decide) (by decide) (by decide) fun t ht => ?_
    rcases List.mem_pair.1 ht with rfl | rfl
    · exact .primitive (by decide)
    · exact harray
  have henumerator : enumeratorSyntax.Readable :=
    .nullable (.member hdictionary (by decide) (by decide) (by simp))
  have htable : ({} : Switches).Readable ∅ tableParameter := ⟨harray, fun _ => by decide⟩
  have hrefTable : ({} : Switches).Readable ∅ refTableParameter := ⟨harray, fun _ => by decide⟩
  obtain ⟨htypes, -, hparameters⟩ := readable_texts_unique .standard
  refine ⟨henumerator, fun ht htext => htypes ht henumerator (htext.trans ?_), htable, hrefTable, ?_⟩
  · decide +kernel
  · have hlists : [tableParameter].map (({} : Switches).declareParameter ∅) =
        [refTableParameter].map (({} : Switches).declareParameter ∅) :=
      hparameters (by simpa using htable) (by simpa using hrefTable) rfl
    exact List.singleton_inj.1 hlists

/-- With the name shown in only one of the lists, the same text may be read in two ways. -/
example : Spacing.standard.parameters [⟨some .ref, .simple "x" [], none⟩] =
    Spacing.standard.parameters [⟨none, .simple "ref" [], some "x"⟩] := by
  decide +kernel

end QuickInfo
