import Mathlib.Algebra.BigOperators.Group.List.Basic
import QuickInfo.Proofs.TypeText.Readable
import QuickInfo.Render

/-!
# Reading types back

The text of a readable type says which type it is. It is read from its end: the last character tells
the form of the type, and no name, comma or bracket of the parts can be taken for one of the whole.
-/
namespace QuickInfo

open Text

namespace Spacing

open TypeSyntax

variable (o : Spacing)

/-- The target of a name and the dot after it. -/
def targetText : Option TypeSyntax → List Char
  | none => []
  | some t => (o.type t).toList ++ ['.']

variable {o}

theorem toList_type_of_named {t : TypeSyntax} {target : Option TypeSyntax} {name : String}
    {arguments : List TypeSyntax} (h : Named t target name arguments) :
    (o.type t).toList =
      o.targetText target ++ name.toList ++ (o.typeList (o.types arguments)).toList := by
  cases h <;> simp [type, targetText, types, typeList]

theorem typeList_cons (text : String) (texts : List String) :
    o.typeList (text :: texts) =
      "<" ++ o.typeArgumentSeparator.intercalate (text :: texts) ++ ">" := rfl

theorem toList_typeList_cons (t : TypeSyntax) (ts : List TypeSyntax) :
    (o.typeList (o.types (t :: ts))).toList =
      '<' :: ((o.type t).toList ++
        following o.typeArgumentSeparator.toList (fun t => (o.type t).toList) ts) ++ ['>'] := by
  rw [types, typeList_cons, ← types, String.toList_append, String.toList_append,
    String.toList_intercalate, types_eq_map, List.map_map]
  exact congrArg (fun items => '<' :: items ++ ['>']) (intercalate_map_cons _ _ t ts)

theorem append_typeList_nil (x : List Char) : x ++ (o.typeList (o.types [])).toList = x :=
  List.append_nil x

theorem getLast?_append_typeList_cons (x : List Char) (t : TypeSyntax) (ts : List TypeSyntax) :
    (x ++ (o.typeList (o.types (t :: ts))).toList).getLast? = some '>' := by
  rw [toList_typeList_cons, ← List.append_assoc, List.getLast?_concat]

/-- The commas between the dimensions of an array. -/
def rankCommas (o : Spacing) (rank : Nat) : List Char :=
  (List.replicate (rank - 1) o.arrayRankSeparator).flatMap String.toList

theorem toList_arrayRank (rank : Nat) :
    (o.arrayRank rank).toList = ['['] ++ o.rankCommas rank ++ [']'] := by
  simp [arrayRank, rankCommas]

theorem mem_rankCommas {rank : Nat} {c : Char} (h : c ∈ o.rankCommas rank) : c ≠ '[' := by
  obtain ⟨s, hs, hc⟩ := List.mem_flatMap.1 h
  obtain rfl := List.eq_of_mem_replicate hs
  rintro rfl
  revert hc
  unfold arrayRankSeparator
  split <;> decide

theorem rankCommas_inj {rank rank' : Nat} (hrank : 1 ≤ rank) (hrank' : 1 ≤ rank')
    (h : o.rankCommas rank = o.rankCommas rank') : rank = rank' := by
  have hlength : ∀ n, (o.rankCommas n).length = (n - 1) * o.arrayRankSeparator.toList.length := by
    intro n
    simp [rankCommas, List.length_flatMap]
  have hsep : 0 < o.arrayRankSeparator.toList.length := by
    unfold arrayRankSeparator
    split <;> decide
  have hl := congrArg List.length h
  rw [hlength, hlength] at hl
  have := Nat.eq_of_mul_eq_mul_right hsep hl
  omega

/-- The brackets of an array are read back. -/
theorem arrayRank_inj {t t' : TypeSyntax} {rank rank' : Nat} (hrank : 1 ≤ rank)
    (hrank' : 1 ≤ rank') {r r' : List Char}
    (h : r ++ (o.type (.array t rank)).toList = r' ++ (o.type (.array t' rank')).toList) :
    r ++ (o.type t).toList = r' ++ (o.type t').toList ∧ rank = rank' := by
  simp only [type, String.toList_append, toList_arrayRank, ← List.append_assoc] at h
  obtain ⟨hfront, hcommas⟩ := append_inj_of_class (P := fun c => c ≠ '[') (by simp) (by simp)
    (fun _ => mem_rankCommas) (fun _ => mem_rankCommas) (List.append_cancel_right h)
  exact ⟨List.append_cancel_right hfront, rankCommas_inj hrank hrank' hcommas⟩

/-- Where a type may begin: at the start of a text, of its arguments or behind a separator. -/
def OpensType (r : List Char) : Prop := ∀ c ∈ r.getLast?, c = '<' ∨ c = ',' ∨ c = ' '

theorem OpensType.isFence {r : List Char} (h : OpensType r) : IsFence r := by
  intro c hc
  rcases h c hc with rfl | rfl | rfl <;> decide

theorem getLast?_separator (z : List Char) :
    (z ++ o.typeArgumentSeparator.toList).getLast? = some ',' ∨
      (z ++ o.typeArgumentSeparator.toList).getLast? = some ' ' := by
  unfold typeArgumentSeparator
  split <;> simp

/-- Where an argument may begin: behind the bracket or a separator. -/
def OpensArgument (o : Spacing) (r : List Char) : Prop :=
  MayStand (fun y => y.getLast? = some '<') o.typeArgumentSeparator.toList r

theorem OpensArgument.opensType {r : List Char} (h : o.OpensArgument r) : OpensType r := by
  have hlast : r.getLast? = some '<' ∨ r.getLast? = some ',' ∨ r.getLast? = some ' ' := by
    rcases h with h | ⟨z, rfl⟩
    · exact .inl h
    · exact .inr (getLast?_separator z)
  intro c hc
  rcases hlast with h | h | h <;> rw [h] at hc <;> obtain rfl := Option.some.inj hc <;> simp

/-- Whatever stands before it, the text of the type is not the end of the text of another type. -/
def ReadsBack (o : Spacing) (t : TypeSyntax) : Prop :=
  ∀ {t' : TypeSyntax}, t'.Readable → ∀ {r r' : List Char}, OpensType r → OpensType r' →
    r ++ (o.type t).toList = r' ++ (o.type t').toList → r = r' ∧ t = t'

theorem getLast?_name {r : List Char} {name : String} (hne : name ≠ "") (hplain : IsPlain name) :
    ∃ c, (r ++ name.toList).getLast? = some c ∧ c ∉ punctuation := by
  have hlist : name.toList ≠ [] := by simpa using hne
  refine ⟨name.toList.getLast hlist, ?_, hplain _ (List.getLast_mem hlist)⟩
  rw [List.getLast?_append_of_ne_nil _ hlist, List.getLast?_eq_some_getLast hlist]

/-- The last character of the text of a type tells how the type is closed. -/
theorem closing_of_getLast? {t : TypeSyntax} (ht : t.Readable) :
    ∃ c, (o.type t).toList.getLast? = some c ∧
      t.closing = if c ∈ punctuation then some c else none := by
  have hnamed : ∀ {t target name arguments}, Named t target name arguments → name ≠ "" →
      IsPlain name → (t.closing = if arguments = [] then none else some '>') →
      ∃ c, (o.type t).toList.getLast? = some c ∧
        t.closing = if c ∈ punctuation then some c else none := by
    intro t target name arguments h hne hplain hclosing
    rw [toList_type_of_named h, hclosing]
    cases arguments with
    | nil =>
      obtain ⟨c, hc, hout⟩ := getLast?_name (r := o.targetText target) hne hplain
      exact ⟨c, by rwa [append_typeList_nil], by simp [hout]⟩
    | cons t ts => exact ⟨'>', getLast?_append_typeList_cons _ t ts, by simp [punctuation]⟩
  cases ht with
  | primitive hword =>
    obtain ⟨hne, hplain⟩ := plain_of_mem_keywords _ hword
    exact hnamed (.primitive hword) hne hplain rfl
  | simple hne hplain hword _ => exact hnamed (.simple hword) hne hplain rfl
  | member _ hne hplain _ => exact hnamed (.member _ _ _) hne hplain rfl
  | array _ _ =>
    refine ⟨']', ?_, by simp [closing, punctuation]⟩
    rw [type, String.toList_append, toList_arrayRank, ← List.append_assoc, List.getLast?_concat]
  | pointer _ => exact ⟨'*', by simp [type], by simp [closing, punctuation]⟩
  | nullable _ => exact ⟨'?', by simp [type], by simp [closing, punctuation]⟩

theorem closing_eq {t t' : TypeSyntax} (ht : t.Readable) (ht' : t'.Readable) {r r' : List Char}
    (h : r ++ (o.type t).toList = r' ++ (o.type t').toList) : t.closing = t'.closing := by
  obtain ⟨c, hc, hclosing⟩ := closing_of_getLast? (o := o) ht
  obtain ⟨c', hc', hclosing'⟩ := closing_of_getLast? (o := o) ht'
  have hlast := congrArg List.getLast? h
  rw [List.getLast?_append, List.getLast?_append, hc, hc', Option.some_or, Option.some_or,
    Option.some.injEq] at hlast
  rw [hclosing, hclosing', hlast]

/-- Arguments are read back if the single types are. -/
theorem typeList_inj {ts ts' : List TypeSyntax} (hts : ∀ t ∈ ts, ReadsBack o t)
    (hts' : ∀ t ∈ ts', t.Readable) {x x' : List Char} (hx : x.getLast? ≠ some '>')
    (hx' : x'.getLast? ≠ some '>')
    (h : x ++ (o.typeList (o.types ts)).toList = x' ++ (o.typeList (o.types ts')).toList) :
    x = x' ∧ ts = ts' := by
  cases ts with
  | nil =>
    cases ts' with
    | nil => exact ⟨List.append_cancel_right h, rfl⟩
    | cons t' ts' =>
      rw [append_typeList_nil] at h
      exact absurd (h ▸ getLast?_append_typeList_cons x' t' ts') hx
  | cons t ts =>
    cases ts' with
    | nil =>
      rw [append_typeList_nil] at h
      exact absurd (h ▸ getLast?_append_typeList_cons x t ts) hx'
    | cons t' ts' =>
      rw [toList_typeList_cons, toList_typeList_cons, ← List.append_assoc, ← List.append_assoc] at h
      have hitems := List.append_cancel_right h
      rw [List.append_cons, List.append_cons x'] at hitems
      have hstart : ∀ z : List Char,
          ¬(z ++ o.typeArgumentSeparator.toList).getLast? = some '<' := by
        intro z hz
        rcases getLast?_separator (o := o) z with hz' | hz' <;> simp [hz'] at hz
      obtain ⟨hfront, hlist⟩ := list_inj (S := fun y => y.getLast? = some '<') hstart
        (fun t ht t' ht' r r' hr hr' => hts t ht (hts' t' ht') (OpensArgument.opensType hr)
          (OpensArgument.opensType hr'))
        (List.getLast?_concat ..) (List.getLast?_concat ..) hitems
      exact ⟨List.append_cancel_right hfront, hlist⟩

/-- Targets are read back if the single types are. -/
theorem targetText_inj {target target' : Option TypeSyntax}
    (htarget : ∀ t ∈ target, ReadsBack o t) (htarget' : ∀ t ∈ target', t.Readable)
    {r r' : List Char} (hr : OpensType r) (hr' : OpensType r')
    (h : r ++ o.targetText target = r' ++ o.targetText target') : r = r' ∧ target = target' := by
  have hdot : ∀ {r s : List Char}, OpensType r → r ≠ s ++ ['.'] := by
    rintro r s hr rfl
    simpa using hr '.' (by simp)
  cases target with
  | none =>
    cases target' with
    | none => exact ⟨by simpa [targetText] using h, rfl⟩
    | some t' =>
      rw [targetText, targetText, List.append_nil, ← List.append_assoc] at h
      exact absurd h (hdot hr)
  | some t =>
    cases target' with
    | none =>
      rw [targetText, targetText, List.append_nil, ← List.append_assoc] at h
      exact absurd h.symm (hdot hr')
    | some t' =>
      rw [targetText, targetText, ← List.append_assoc, ← List.append_assoc] at h
      obtain ⟨hrr, rfl⟩ := htarget t rfl (htarget' t' rfl) hr hr' (List.append_cancel_right h)
      exact ⟨hrr, rfl⟩

theorem isFence_targetText {r : List Char} (hr : OpensType r) (target : Option TypeSyntax) :
    IsFence (r ++ o.targetText target) := by
  cases target with
  | none => simpa [targetText] using hr.isFence
  | some t =>
    intro c hc
    rw [targetText, ← List.append_assoc, List.getLast?_concat] at hc
    obtain rfl := Option.some.inj hc
    decide

/-- A type that is given by a name is read back if its parts are. -/
theorem readsBack_of_named {t : TypeSyntax} {target : Option TypeSyntax} {name : String}
    {arguments : List TypeSyntax} (h : Named t target name arguments)
    (hparts : ReadableParts target name arguments) (htarget : ∀ t ∈ target, ReadsBack o t)
    (harguments : ∀ t ∈ arguments, ReadsBack o t) : ReadsBack o t := by
  intro t' ht' r r' hr hr' heq
  have hclosing : t'.closing = none ∨ t'.closing = some '>' := by
    rw [← closing_eq (h.readable hparts) ht' heq]
    cases h with
    | primitive _ => exact .inl rfl
    | simple _ => exact ite_eq_or_eq ..
    | member _ _ _ => exact ite_eq_or_eq ..
  obtain ⟨target', name', arguments', h', hparts'⟩ := ht'.exists_named hclosing
  have hlast : ∀ {r : List Char} {name : String}, name ≠ "" → IsPlain name →
      (r ++ name.toList).getLast? ≠ some '>' := by
    intro r name hne hplain heq
    obtain ⟨c, hc, hout⟩ := getLast?_name (r := r) hne hplain
    obtain rfl := Option.some.inj (hc.symm.trans heq)
    exact hout (by decide)
  rw [toList_type_of_named h, toList_type_of_named h', ← List.append_assoc, ← List.append_assoc,
    ← List.append_assoc, ← List.append_assoc] at heq
  obtain ⟨hnames, rfl⟩ := typeList_inj harguments hparts'.arguments_readable
    (hlast hparts.name_ne hparts.name_plain) (hlast hparts'.name_ne hparts'.name_plain) heq
  obtain ⟨htargets, rfl⟩ := append_plain_inj (isFence_targetText hr target)
    (isFence_targetText hr' target') hparts.name_plain hparts'.name_plain hnames
  obtain ⟨hfront, rfl⟩ := targetText_inj htarget hparts'.target_readable hr hr' htargets
  exact ⟨hfront, h.unique h'⟩

/-- Every readable type is read back from its text. -/
theorem readsBack {t : TypeSyntax} (ht : t.Readable) : ReadsBack o t := by
  induction ht with
  | primitive hword =>
    obtain ⟨hne, hplain⟩ := plain_of_mem_keywords _ hword
    exact readsBack_of_named (.primitive hword) ⟨hne, hplain, by simp, by simp⟩ (by simp) (by simp)
  | simple hne hplain hword harguments ih =>
    exact readsBack_of_named (.simple hword) ⟨hne, hplain, by simp, harguments⟩ (by simp)
      fun t ht => ih t ht
  | member htarget hne hplain harguments ihtarget ih =>
    exact readsBack_of_named (.member _ _ _) ⟨hne, hplain, by simpa using htarget, harguments⟩
      (by rintro t ⟨⟩; exact ihtarget) fun t ht => ih t ht
  | @array element rank helement hrank ih =>
    intro t' ht' r r' hr hr' heq
    have hclosing := closing_eq (.array helement hrank) ht' heq
    cases ht' with
    | @array element' rank' helement' hrank' =>
      obtain ⟨hfront, rfl⟩ := arrayRank_inj hrank hrank' heq
      obtain ⟨hr, rfl⟩ := ih helement' hr hr' hfront
      exact ⟨hr, rfl⟩
    | _ => simp [closing] at hclosing
  | pointer helement ih =>
    intro t' ht' r r' hr hr' heq
    have hclosing := closing_eq (.pointer helement) ht' heq
    cases ht' with
    | pointer helement' =>
      simp only [type, String.toList_append, ← List.append_assoc] at heq
      obtain ⟨hr, rfl⟩ := ih helement' hr hr' (List.append_cancel_right heq)
      exact ⟨hr, rfl⟩
    | _ => simp [closing] at hclosing
  | nullable helement ih =>
    intro t' ht' r r' hr hr' heq
    have hclosing := closing_eq (.nullable helement) ht' heq
    cases ht' with
    | nullable helement' =>
      simp only [type, String.toList_append, ← List.append_assoc] at heq
      obtain ⟨hr, rfl⟩ := ih helement' hr hr' (List.append_cancel_right heq)
      exact ⟨hr, rfl⟩
    | _ => simp [closing] at hclosing

/-- Readable types with the same text are the same. -/
theorem type_inj {t t' : TypeSyntax} (ht : t.Readable) (ht' : t'.Readable)
    (h : o.type t = o.type t') : t = t' := by
  have hnil : OpensType [] := by simp [OpensType]
  exact (readsBack ht ht' hnil hnil (congrArg String.toList h)).2

end Spacing

end QuickInfo
