import QuickInfo.Proofs.Header.Qualification
import QuickInfo.Proofs.TypeText.Nullable

/-!
# Unresolved references

A reference that a project does not know, and that is to no predefined type, is written with its name
as it stands, dots in place of plus signs, and its arguments behind it. With short names the
namespace is left out.
-/
namespace QuickInfo

open QualifiedName

namespace Text

/-- Putting parts together with another separator replaces each separator. -/
theorem intercalate_splitOn_eq_map (old new : Char) (cs : List Char) :
    [new].intercalate (cs.splitOn old) = cs.map fun c => if c = old then new else c := by
  induction cs with
  | nil => rfl
  | cons c cs ih =>
    have hsplit := List.splitOnP_cons_eq_if_modifyHead (p := (· == old)) c cs
    rw [← List.splitOn_eq_splitOnP, ← List.splitOn_eq_splitOnP] at hsplit
    obtain ⟨part, parts, hparts⟩ := List.exists_cons_of_ne_nil (List.splitOn_ne_nil old cs)
    rw [hsplit, List.map_cons, ← ih, hparts]
    by_cases hc : c = old
    · rw [if_pos hc, if_pos (beq_iff_eq.2 hc), List.intercalate_cons_cons]
      rfl
    · rw [if_neg hc, if_neg (mt beq_iff_eq.1 hc), List.modifyHead_cons]
      cases parts with
      | nil => simp
      | cons second parts => simp [List.intercalate_cons_cons]

theorem toList_substitute (old new : Char) (s : String) :
    (substitute old new s).toList = s.toList.map fun c => if c = old then new else c :=
  String.toList_ofList

theorem intercalate_segments_eq_substitute {old new : Char} {separator : String}
    (hnew : separator.toList = [new]) (s : String) :
    separator.intercalate (segments old s) = substitute old new s := by
  have hparts : (segments old s).map String.toList = s.toList.splitOn old := by
    rw [segments, List.map_map]
    simp [Function.comp_def]
  apply String.toList_inj.1
  rw [String.toList_intercalate, hnew, hparts, intercalate_splitOn_eq_map, toList_substitute]

theorem substitute_append (old new : Char) (s t : String) :
    substitute old new (s ++ t) = substitute old new s ++ substitute old new t := by
  apply String.toList_inj.1
  simp only [toList_substitute, String.toList_append, List.map_append]

theorem substitute_of_notMem {old : Char} (new : Char) {s : String} (h : old ∉ s.toList) :
    substitute old new s = s := by
  have hsame : ∀ c ∈ s.toList, (if c = old then new else c) = c := by
    intro c hc
    refine if_neg ?_
    rintro rfl
    exact h hc
  apply String.toList_inj.1
  rw [toList_substitute, List.map_congr_left hsame, List.map_id']

end Text

namespace TypeSyntax

/-- Names behind a namespace are written with dots between them. -/
theorem type_attach_path (o : Spacing) (naming : Naming) (ns : String) (names : List String)
    (last : String) (arguments : List TypeSyntax) :
    o.type (attach (path (ofNamespace? naming ns) names) last arguments) =
      naming.namespaceText ns ++ ".".intercalate (names ++ [last]) ++
        o.typeList (o.types arguments) := by
  induction names using List.reverseRecOn generalizing last arguments with
  | nil =>
    rw [List.nil_append, String.intercalate_singleton]
    exact type_attach_ofNamespace? o naming ns last arguments
  | append_singleton names name ih =>
    have hname : o.typeList (o.types []) = "" := rfl
    rw [path_concat, attach, Spacing.type, ih name [], hname, String.append_empty,
      String.intercalate_append_of_ne_nil (List.concat_ne_nil name names) (List.cons_ne_nil last []),
      String.intercalate_singleton]
    simp only [String.append_assoc]

/-- A name that is not known is written as it is. -/
theorem type_ofUnknown (o : Spacing) (naming : Naming) (ns name : String)
    (arguments : List TypeSyntax) :
    o.type (ofUnknown naming ns name arguments) =
      naming.namespaceText ns ++ name ++ o.typeList (o.types arguments) := by
  have hne : Text.segments '.' name ≠ [] := by
    rw [Text.segments]
    exact mt List.map_eq_nil_iff.1 (List.splitOn_ne_nil '.' name.toList)
  have hparts : (Text.segments '.' name).dropLast ++ [(Text.segments '.' name).getLastD ""] =
      Text.segments '.' name := by
    rw [List.getLastD_eq_getLast?, List.getLast?_eq_some_getLast hne]
    exact List.dropLast_append_getLast hne
  rw [ofUnknown, type_attach_path, hparts, Text.intercalate_segments rfl]

end TypeSyntax

theorem Predefined.mem_keys_of_keyword? {ns simple : String}
    (h : (keyword? ns simple).isSome) : ⟨qualify ns simple, 0⟩ ∈ keys := by
  obtain ⟨keyword, hkeyword⟩ := Option.isSome_iff_exists.1 h
  rw [keyword?] at hkeyword
  split at hkeyword
  · next hns =>
    obtain ⟨front, back, hkeywords, -⟩ := List.lookup_eq_some_iff.1 hkeyword
    refine List.mem_map.2 ⟨(simple, keyword), ?_, by rw [hns]⟩
    simp [hkeywords]
  · cases hkeyword

/-- The arguments of a reference in their brackets, each with its own text. -/
def argumentsText (f : Facets) (p : Project) : List TypeReference → String
  | [] => ""
  | arguments => "<" ++ ", ".intercalate (arguments.map (referenceText f p)) ++ ">"

theorem typeList_ofTypes_resolveAll (f : Facets) (p : Project) (arguments : List TypeReference) :
    Spacing.standard.typeList
        (Spacing.standard.types (TypeSyntax.ofTypes f.naming (p.resolveAll arguments))) =
      argumentsText f p arguments := by
  rw [Spacing.types_eq_map, TypeSyntax.ofTypes_eq_map, p.resolveAll_eq_map, List.map_map,
    List.map_map]
  cases arguments <;> rfl

namespace Project

variable {p : Project}

/-- The reference is to no type of the project and to no predefined type. -/
structure Unresolved (p : Project) (key : TypeKey) : Prop where
  unknown : p.find? key = none
  not_predefined : key ∉ Predefined.keys
  not_nullable : key ≠ ⟨"System.Nullable", 1⟩

variable {name : String} {arguments : List TypeReference}

theorem resolve_of_unresolved (h : p.Unresolved ⟨name, arguments.length⟩)
    (hdot : ¬LeadingDot name) :
    p.resolve (.named name arguments) =
      .unknown (QualifiedName.ofText name).ns (".".intercalate (QualifiedName.ofText name).path)
        (p.resolveAll arguments) := by
  have hlength := p.length_resolveAll arguments
  have hunknown : p.find? ⟨name, (p.resolveAll arguments).length⟩ = none := hlength ▸ h.unknown
  rw [resolve, resolveNamed_of_find?_eq_none hunknown]
  refine resolveNamed_empty_eq_unknown rfl (or_iff_not_imp_left.2 fun hnil simple hpath => ?_)
  -- a keyword would make the name that of a predefined type
  by_contra hkeyword
  have hkey := Predefined.mem_keys_of_keyword? (Option.isSome_iff_ne_none.2 hkeyword)
  have hname : qualify (QualifiedName.ofText name).ns simple = name := by
    have htext := text_ofText hdot
    rwa [text, hpath, String.intercalate_singleton] at htext
  have harity : arguments.length = 0 := by
    rw [← hlength, Decidable.not_not.1 hnil, List.length_nil]
  rw [hname, ← harity] at hkey
  exact h.not_predefined hkey

theorem referenceText_of_unresolved (h : p.Unresolved ⟨name, arguments.length⟩)
    (hdot : ¬LeadingDot name) (f : Facets) :
    referenceText f p (.named name arguments) =
      f.naming.namespaceText (QualifiedName.ofText name).ns ++
        Text.substitute '+' '.' (withoutNamespace name) ++ argumentsText f p arguments := by
  have hunknown := resolve_of_unresolved h hdot
  have hnullable : ¬∃ t, (p.resolve (.named name arguments)).NullableOf t := by
    rintro ⟨t, ht⟩
    have hlength : (p.resolveAll arguments).length = arguments.length :=
      p.length_resolveAll arguments
    rw [resolve, resolveNamed_of_find?_eq_none (hlength ▸ h.unknown),
      nullableOf_resolveNamed_empty_iff] at ht
    have hname : name = "System.Nullable" := by
      rw [← text_ofText hdot, ht.2]
      rfl
    have harity : arguments.length = 1 := by
      rw [← hlength, ht.1, List.length_singleton]
    exact h.not_nullable (by rw [hname, harity])
  have hnames : ".".intercalate (QualifiedName.ofText name).path =
      Text.substitute '+' '.' (withoutNamespace name) := by
    rw [path_ofText]
    exact Text.intercalate_segments_eq_substitute rfl _
  rw [hunknown] at hnullable
  rw [referenceText, hunknown, typeText,
    (TypeSyntax.ofType_unknown_eq_byName_iff f.naming _ _ _).2 hnullable, TypeSyntax.byName,
    TypeSyntax.type_ofUnknown, typeList_ofTypes_resolveAll, hnames]

/-- A reference that is not resolved is written as it stands, with dots in place of plus signs and
the texts of its arguments behind it. Without qualified type names the part up to the last dot
before the first plus sign is left out. -/
theorem unresolved_text (hname : name.toList.head? ≠ some '.')
    (h : p.Unresolved ⟨name, arguments.length⟩) (f : Facets) :
    (.qualifiedTypeNames ∈ f → referenceText f p (.named name arguments) =
        Text.substitute '+' '.' name ++ argumentsText f p arguments) ∧
      (.qualifiedTypeNames ∉ f → referenceText f p (.named name arguments) =
        Text.substitute '+' '.' (withoutNamespace name) ++ argumentsText f p arguments) := by
  have hdot : ¬LeadingDot name := by
    rintro ⟨rest, rfl, -⟩
    simp at hname
  have htext := referenceText_of_unresolved h hdot f
  constructor
  · intro hf
    have hnaming : f.naming = .qualified := if_pos hf
    have hns : Text.substitute '+' '.'
        (Naming.qualified.namespaceText (QualifiedName.ofText name).ns) =
          Naming.qualified.namespaceText (QualifiedName.ofText name).ns := by
      refine Text.substitute_of_notMem '.' ?_
      have hplus := plus_notMem_ns_ofText name
      by_cases hempty : (QualifiedName.ofText name).ns = "" <;>
        simp [Naming.namespaceText, hempty, hplus]
    have hwhole : Naming.qualified.namespaceText (QualifiedName.ofText name).ns ++
        withoutNamespace name = name := by
      refine Eq.trans ?_ ((text_ofText_eq_qualify name).symm.trans (text_ofText hdot))
      by_cases hempty : (QualifiedName.ofText name).ns = "" <;>
        simp [Naming.namespaceText, qualify, hempty]
    rw [htext, hnaming, ← hns, ← Text.substitute_append, hwhole]
  · intro hf
    have hnaming : f.naming = .short := if_neg hf
    rw [htext, hnaming, Naming.namespaceText, String.empty_append]

/-- A nested type and a predefined type. -/
def partArguments : List TypeReference := [.named "Acme.Outer+Inner" [], intReference]

/-- The nested type is known, the type with the arguments is not; its name has dots everywhere. -/
theorem unresolved_text_part :
    (outerProject []).Reachable ∧ "Web..Forms+Page.Part".toList.head? ≠ some '.' ∧
      (outerProject []).Unresolved ⟨"Web..Forms+Page.Part", partArguments.length⟩ ∧
      referenceText .everything (outerProject []) (.named "Web..Forms+Page.Part" partArguments) =
        "Web..Forms.Page.Part<Acme.Outer.Inner, int>" ∧
      referenceText .standard (outerProject []) (.named "Web..Forms+Page.Part" partArguments) =
        "Forms.Page.Part<Outer.Inner, int>" := by
  have hname : "Web..Forms+Page.Part".toList.head? ≠ some '.' := by decide
  have hunknown : (outerProject []).find? ⟨"Web..Forms+Page.Part", partArguments.length⟩ = none := by
    decide +kernel
  have hunresolved : (outerProject []).Unresolved ⟨"Web..Forms+Page.Part", partArguments.length⟩ :=
    ⟨hunknown, by decide, by decide⟩
  have hqualified : argumentsText .everything (outerProject []) partArguments =
      "<Acme.Outer.Inner, int>" := by decide +kernel
  have hshort : argumentsText .standard (outerProject []) partArguments = "<Outer.Inner, int>" := by
    decide +kernel
  refine ⟨reachable_outerProject [], hname, hunresolved, ?_, ?_⟩
  · rw [(unresolved_text hname hunresolved .everything).1 (by decide), hqualified]
    decide +kernel
  · rw [(unresolved_text hname hunresolved .standard).2 (by decide), hshort]
    decide +kernel

end Project

end QuickInfo
