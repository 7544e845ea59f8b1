import Mathlib.Data.List.Induction
import QuickInfo.Proofs.Header.Missing
import QuickInfo.Proofs.Project.Spelling
import QuickInfo.Proofs.Text.Trimming

/-!
# Qualified member names

The header of a type has the names of the enclosing types, which are found by the links from the
type outward. Before a qualified member name the declaring type is written as a type. Both are the
same path of names, with the same type parameters, and differ in the namespace before it at most.
-/
namespace QuickInfo

open Text

/-- The name of a type with its type parameters. -/
def TypeHeader.fullText (h : TypeHeader) : String :=
  h.name ++ Spacing.standard.typeParameters h.typeParameters

/-- The names of the enclosing types, of which the innermost is given first, and of the type. -/
def nestedText (outers : List TypeDefinition) (d : TypeDefinition) : String :=
  String.join (outers.reverse.map fun o => o.fullText ++ ".") ++ d.fullText

theorem nestedText_cons (o : TypeDefinition) (outers : List TypeDefinition) (d : TypeDefinition) :
    nestedText (o :: outers) d = nestedText outers o ++ "." ++ d.fullText := by
  simp only [nestedText, List.reverse_cons, List.map_append, List.map_singleton, String.join_append,
    String.join_cons, String.join_nil, String.append_empty, String.append_assoc]

/-- The namespace with a dot after it, unless it is left out. -/
def Naming.namespaceText : Naming → String → String
  | .short, _ => ""
  | .qualified, ns => if ns = "" then "" else ns ++ "."

/-! ### Types -/

namespace TypeSyntax

/-- Names one after the other are written with dots between them. -/
theorem exists_path (o : Spacing) {names : List String} (h : names ≠ []) :
    ∃ t, path none names = some t ∧ o.type t = ".".intercalate names := by
  induction names using List.reverseRecOn with
  | nil => exact absurd rfl h
  | append_singleton names name ih =>
    refine ⟨_, path_concat none names name, ?_⟩
    have hname : name ++ o.typeList (o.types []) = name := String.append_empty
    by_cases hnames : names = []
    · subst hnames
      rw [List.nil_append, String.intercalate_singleton]
      exact hname
    · obtain ⟨t, ht, htext⟩ := ih hnames
      rw [ht, attach, Spacing.type, htext, String.append_assoc, hname,
        String.intercalate_append_of_ne_nil hnames (by simp), String.intercalate_singleton]

theorem type_attach_ofNamespace? (o : Spacing) (naming : Naming) (ns name : String)
    (arguments : List TypeSyntax) :
    o.type (attach (ofNamespace? naming ns) name arguments) =
      naming.namespaceText ns ++ name ++ o.typeList (o.types arguments) := by
  have hnone : o.type (attach none name arguments) =
      "" ++ name ++ o.typeList (o.types arguments) := by
    rw [String.empty_append]
    rfl
  cases naming with
  | short => exact hnone
  | qualified =>
    by_cases hns : ns = ""
    · rw [ofNamespace?, Naming.namespaceText, if_pos hns, if_pos hns, hnone]
    · rw [ofNamespace?, Naming.namespaceText, if_neg hns, if_neg hns]
      have hne : Text.segments '.' ns ≠ [] := by
        rw [Text.segments]
        exact mt List.map_eq_nil_iff.1 (List.splitOn_ne_nil '.' ns.toList)
      obtain ⟨t, ht, htext⟩ := exists_path o hne
      rw [ht, attach, Spacing.type, htext, Text.intercalate_segments rfl]

/-- The type parameters of a type, taken as its arguments, are written as in its header if they are
invariant. -/
theorem typeList_ownArguments (naming : Naming) {h : TypeHeader}
    (hinvariant : ∀ a ∈ h.typeParameters, a.variance = .invariant) :
    Spacing.standard.typeList (Spacing.standard.types (ofTypes naming h.ownArguments)) =
      Spacing.standard.typeParameters h.typeParameters := by
  rw [Spacing.typeParameters, Spacing.types_eq_map, ofTypes_eq_map, TypeHeader.ownArguments,
    List.map_map, List.map_map]
  congr 1
  refine List.map_congr_left fun a ha => ?_
  calc Spacing.standard.type (ofType naming (.typeParameter a.name))
      = a.name ++ "" := rfl
    _ = "" ++ a.name := by rw [String.append_empty, String.empty_append]
    _ = a.text := by rw [TypeParameter.text, hinvariant a ha, Variance.text]

/-- A type inside others is written as its namespace and the path of their names. -/
theorem type_ofDefinition_nestIn (naming : Naming) {d : TypeDefinition}
    {outers : List TypeDefinition} (hns : ∀ o ∈ outers, o.ns = d.ns)
    (hinvariant : ∀ e ∈ d :: outers, ∀ a ∈ e.typeParameters, a.variance = .invariant) :
    Spacing.standard.type (ofDefinition naming (Project.nestIn d outers)) =
      naming.namespaceText d.ns ++ nestedText outers d := by
  -- outward, as the innermost name is written last
  induction outers generalizing d with
  | nil =>
    have hd := typeList_ownArguments naming (hinvariant d List.mem_cons_self)
    rw [Project.nestIn, ofDefinition, type_attach_ofNamespace?, hd, String.append_assoc]
    rfl
  | cons o outers ih =>
    obtain ⟨ho, hos⟩ := List.forall_mem_cons.1 hns
    obtain ⟨hd, hinvariant⟩ := List.forall_mem_cons.1 hinvariant
    have houter := ih (fun e he => (hos e he).trans ho.symm) hinvariant
    rw [Project.nestIn, ofDefinition, Spacing.type, houter, typeList_ownArguments naming hd, ho,
      nestedText_cons, TypeHeader.fullText]
    simp only [String.append_assoc]

/-- Neither a keyword nor a question mark stands for the type. -/
theorem ofType_nestIn (naming : Naming) {d : TypeDefinition} {outers : List TypeDefinition}
    (hns : ∀ o ∈ outers, o.ns = d.ns)
    (hkeyword : outers = [] → d.arity = 0 → Predefined.keyword? d.ns d.name = none)
    (hnullable : ¬(d.arity = 1 ∧ d.ns = "System" ∧ d.name = "Nullable")) :
    ofType naming (.definition (Project.nestIn d outers)) =
      ofDefinition naming (Project.nestIn d outers) := by
  have hlength : (ofTypes naming d.ownArguments).length = d.arity := by
    rw [ofTypes_eq_map, List.length_map, TypeHeader.ownArguments, List.length_map, TypeHeader.arity]
  rw [← hlength] at hkeyword hnullable
  cases outers with
  | nil =>
    have hnone : ofTypes naming d.ownArguments ≠ [] ∨ Predefined.keyword? d.ns d.name = none := by
      by_cases h : ofTypes naming d.ownArguments = []
      · exact .inr (hkeyword rfl (List.length_eq_zero_iff.2 h))
      · exact .inl h
    rw [Project.nestIn, ofType, ofTopLevel_of_keyword?_eq_none hnone, orNullable_of_ne hnullable]
    rfl
  | cons o outers =>
    obtain ⟨ho, hos⟩ := List.forall_mem_cons.1 hns
    have hroot : (Project.nestIn o outers).rootNamespace = d.ns :=
      (rootNamespace_nestIn fun e he => (hos e he).trans ho.symm).trans ho
    rw [Project.nestIn, ofType, hroot, orNullable_of_ne hnullable]
    rfl

end TypeSyntax

/-! ### Headers -/

variable {f : Facets} {p : Project}

/-- The headers have no part before a name, the names have their type parameters, and the names of
members are qualified. -/
structure Facets.QualifiesMembers (f : Facets) : Prop where
  qualifiedMemberNames : .qualifiedMemberNames ∈ f
  typeParameterList : .typeParameterList ∈ f
  modifiers : .modifiers ∉ f
  returnType : .returnType ∉ f
  definitionKeyword : .definitionKeyword ∉ f

/-- The name in a type header has the namespace only if the type is not nested. -/
theorem typeNameText_eq (hf : f.QualifiesMembers) (outers : List TypeDefinition)
    (d : TypeDefinition) :
    typeNameText f outers d =
      (if outers = [] then Naming.qualified.namespaceText d.ns else "") ++ nestedText outers d := by
  cases outers with
  | nil =>
    simp only [typeNameText, Facets.shown_of_mem hf.qualifiedMemberNames,
      Facets.shown_of_mem hf.typeParameterList]
    rfl
  | cons o outers =>
    simp only [typeNameText, Facets.shown_of_mem hf.typeParameterList]
    rw [if_neg (List.cons_ne_nil o outers), String.empty_append]
    rfl

theorem endsOutside_fullText {h : TypeHeader} (hname : EndsOutside isBlank h.name) :
    EndsOutside isBlank h.fullText := by
  have hclosing : EndsOutside isBlank ">" := by decide
  rw [TypeHeader.fullText, Spacing.typeParameters]
  cases h.typeParameters.map TypeParameter.text with
  | nil => exact hname.append fun c hc => nomatch hc
  | cons text texts =>
    have hlist : Spacing.standard.typeList (text :: texts) =
        "<" ++ Spacing.standard.typeArgumentSeparator.intercalate (text :: texts) ++ ">" := rfl
    rw [hlist, ← String.append_assoc]
    exact hclosing.append_left (by decide) _

/-- Nothing of the header of a type is trimmed. -/
theorem typeHeaderInside_eq (hf : f.QualifiesMembers) {d : TypeDefinition}
    (hkind : d.kind ≠ .delegateType) (hne : d.name ≠ "") (hname : EndsOutside isBlank d.name)
    (outers : List TypeDefinition) :
    typeHeaderInside f outers d = .ok (typeNameText f outers d) := by
  have hfull : d.fullText ≠ "" := by
    rw [TypeHeader.fullText]
    simp [hne]
  have hends : EndsOutside isBlank (typeNameText f outers d) := by
    rw [typeNameText_eq hf, nestedText, ← String.append_assoc]
    exact (endsOutside_fullText hname).append_left hfull _
  obtain ⟨kind, hheader⟩ : ∃ kind, d.kind.header? = some kind := by
    cases hk : d.kind with
    | delegateType => exact absurd hk hkind
    | _ => exact ⟨_, rfl⟩
  have hdeclare : f.switches.declareType d = .ok ⟨_, kind, d.name, d.typeParameters⟩ :=
    declareType_eq_ok_iff.2 ⟨kind, hheader, rfl⟩
  have hkeyword : ∀ declaration, keywordText f declaration = .ok "" := by
    intro declaration
    exact if_neg hf.definitionKeyword
  simp only [typeHeaderInside, hdeclare, hkeyword, bind, Except.bind, pure, Except.pure,
    Facets.shown_of_notMem hf.modifiers, String.empty_append, trimEnd_eq_self hends]

/-- The name of a member and what is shown behind it. -/
def memberSignatureText (f : Facets) (p : Project) (declaring : TypeHeader) (m : MemberDocument) :
    String :=
  let declaration := f.switches.memberDeclaration p (declaring.kind = .interfaceType) m
  memberNameText f p declaring m ++
    (f.shown .typeParameterList (Spacing.standard.typeParameters declaration.typeParameters) ++
      f.shown .parameterList declaration.parameterListText)

/-- Without modifiers and return type, a member header is the name of the member, which is qualified
or not. -/
theorem memberHeaderInside_eq (hmodifiers : .modifiers ∉ f) (hreturnType : .returnType ∉ f)
    (declaring : TypeHeader) (t : DefinitionType) (m : MemberDocument) :
    memberHeaderInside f p declaring t m =
      trimEnd (f.shown .qualifiedMemberNames (typeText f (.definition t) ++ ".") ++
        memberSignatureText f p declaring m) := by
  simp only [memberHeaderInside, memberSignatureText, Facets.shown_of_notMem hmodifiers,
    Facets.shown_of_notMem hreturnType, String.empty_append, String.append_assoc]

/-- The choice of facets without the given one. -/
abbrev Facets.without (f : Facets) (a : Facet) : Facets := f \ .ofList [a]

/-- The choice of facets in which member names are not qualified. -/
abbrev Facets.unqualified (f : Facets) : Facets := f \ .ofList [.qualifiedMemberNames]

section Without

variable {a : Facet}

theorem Facets.has_without {b : Facet} (h : b ≠ a) : (f.without a).has b = f.has b := by
  simp [h]

theorem Facets.notMem_without : a ∉ f.without a := by
  simp [FlagSet.mem_def]

theorem Facets.shown_without {b : Facet} (h : b ≠ a) : (f.without a).shown b = f.shown b := by
  funext text
  rw [Facets.shown, Facets.shown, Facets.has_without h]

/-- Types are written with or without their namespaces, and nothing else is chosen about them. -/
theorem Facets.naming_without (h : .qualifiedTypeNames ≠ a) : (f.without a).naming = f.naming := by
  rw [Facets.naming, Facets.naming, Facets.has_without h]

theorem typeText_without (h : .qualifiedTypeNames ≠ a) : typeText (f.without a) = typeText f := by
  funext t
  rw [typeText, typeText, Facets.naming_without h]

/-- What stands behind the modifiers, the return type and the qualification does not depend on
them. -/
theorem memberSignatureText_without
    (h : ∀ b ∈ [.parameterNames, .qualifiedTypeNames, .typeParameterList, .parameterList], b ≠ a)
    (declaring : TypeHeader) (m : MemberDocument) :
    memberSignatureText (f.without a) p declaring m = memberSignatureText f p declaring m := by
  simp only [List.forall_mem_cons] at h
  obtain ⟨hnames, htypes, htypeParameters, hparameters, -⟩ := h
  have hname : memberNameText (f.without a) p declaring m = memberNameText f p declaring m := by
    simp only [memberNameText, referenceText, typeText_without htypes]
  have hparameter : (f.without a).switches.declareParameter p = f.switches.declareParameter p := by
    funext b
    simp only [Switches.declareParameter, Facets.switches, Facets.naming_without htypes,
      Facets.has_without hnames]
    rfl
  simp only [memberSignatureText, hname, Facets.shown_without htypeParameters,
    Facets.shown_without hparameters, MemberDeclaration.parameterListText,
    Switches.memberDeclaration, hparameter]
  rfl

end Without

/-- Qualification puts the declaring type and a dot before the header of a member. Trimming leaves
them as they are, whatever the header is. -/
theorem memberHeaderInside_qualified (hf : f.QualifiesMembers) (declaring : TypeHeader)
    (t : DefinitionType) (m : MemberDocument) :
    memberHeaderInside f p declaring t m = typeText f (.definition t) ++ "." ++
      memberHeaderInside f.unqualified p declaring t m := by
  have hsub : ∀ {a}, a ∉ f → a ∉ f.unqualified := by
    intro a ha hmem
    rw [FlagSet.mem_def, FlagSet.has_sdiff, Bool.and_eq_true] at hmem
    exact ha hmem.1
  have hnone : Facet.qualifiedMemberNames ∉ f.unqualified := Facets.notMem_without
  have hdot : EndsOutside isBlank (typeText f (.definition t) ++ ".") :=
    EndsOutside.append_left (by decide) (by decide) _
  rw [memberHeaderInside_eq hf.modifiers hf.returnType,
    memberHeaderInside_eq (hsub hf.modifiers) (hsub hf.returnType),
    Facets.shown_of_mem hf.qualifiedMemberNames, Facets.shown_of_notMem hnone, String.empty_append,
    memberSignatureText_without (by decide), trimEnd_append hdot]

namespace Project

/-- The type is written by its name: it has a header, no type parameter in it has a word before it,
the name is not trimmed at its end, and neither a keyword nor a question mark stands for the
type. -/
structure SpelledByName (p : Project) (d : TypeDefinition) : Prop where
  hasHeader : d.kind ≠ .delegateType
  invariant : ∀ {outers}, p.enclosing d = .ok outers → ∀ e ∈ d :: outers, ∀ a ∈ e.typeParameters,
    a.variance = .invariant
  name_ends : EndsOutside isBlank d.name
  not_keyword : ¬(d.declaringType = none ∧ d.arity = 0 ∧ (Predefined.keyword? d.ns d.name).isSome)
  not_nullable : ¬(d.arity = 1 ∧ d.ns = "System" ∧ d.name = "Nullable")

section Texts

variable (hp : p.WellFormed) {i : TypeId} {d : TypeDefinition} {outers : List TypeDefinition}

include hp

theorem WellFormed.entityText_type_eq (hf : f.QualifiesMembers) (hd : p.definition? i = some d)
    (hspelled : p.SpelledByName d) (houters : p.Chain d.declaringType outers) :
    entityText f p (.type i) =
      .ok ((if outers = [] then Naming.qualified.namespaceText d.ns else "") ++
        nestedText outers d) := by
  have hne : d.name ≠ "" := (typeNameFault?_eq_none_iff.1 (hp.name_valid hd)).1
  rw [entityText_type hd, typeHeaderText_eq_inside (hp.enclosing_eq houters),
    typeHeaderInside_eq hf hspelled.hasHeader hne hspelled.name_ends, typeNameText_eq hf]

theorem WellFormed.typeText_nestIn (hd : p.definition? i = some d) (hspelled : p.SpelledByName d)
    (houters : p.Chain d.declaringType outers) :
    typeText f (.definition (nestIn d outers)) =
      f.naming.namespaceText d.ns ++ nestedText outers d := by
  have hns : ∀ o ∈ outers, o.ns = d.ns :=
    hp.ns_of_chain houters fun _ _ ho he => hp.ns_eq hd ho he
  have hkeyword : outers = [] → d.arity = 0 → Predefined.keyword? d.ns d.name = none := by
    intro hnil harity
    have hnone : ¬(Predefined.keyword? d.ns d.name).isSome := fun hk =>
      hspelled.not_keyword ⟨houters.eq_nil_iff.1 hnil, harity, hk⟩
    simpa using hnone
  rw [typeText, TypeSyntax.ofType_nestIn f.naming hns hkeyword hspelled.not_nullable,
    TypeSyntax.type_ofDefinition_nestIn f.naming hns
      (hspelled.invariant (hp.enclosing_eq houters))]

theorem WellFormed.exists_entityText_member_eq (hf : f.QualifiesMembers)
    (hd : p.definition? i = some d) (hspelled : p.SpelledByName d)
    (houters : p.Chain d.declaringType outers) {j : Nat} {m : Member}
    (hm : p.member? ⟨i, j⟩ = some m) :
    ∃ u, entityText f.unqualified p (.member ⟨i, j⟩) = .ok u ∧
      entityText f p (.member ⟨i, j⟩) =
        .ok (f.naming.namespaceText d.ns ++ nestedText outers d ++ "." ++ u) := by
  obtain ⟨t, ht, hheader⟩ := hp.exists_memberHeaderInside hd hm
  obtain rfl := Option.some.inj ((hp.definitionType?_eq hd houters).symm.trans ht)
  refine ⟨_, hheader f.unqualified, ?_⟩
  rw [hheader f, memberHeaderInside_qualified hf, hp.typeText_nestIn hd hspelled houters]

end Texts

/-- A qualified member name is the header of the declaring type, a dot and the name that is not
qualified. This holds if the two agree on the namespace: a type header has the namespace of a type
that is not nested, a type in a text has the namespace if type names are qualified. For a nested
type with a qualified name the namespace comes before the header. -/
theorem qualified_member_text (h : p.Reachable) {i : TypeId} {d : TypeDefinition}
    (hd : p.definition? i = some d) (hspelled : p.SpelledByName d) {j : Nat} {m : Member}
    (hm : p.member? ⟨i, j⟩ = some m) (hf : f.QualifiesMembers) :
    ∃ t u, entityText f p (.type i) = .ok t ∧
      entityText f.unqualified p (.member ⟨i, j⟩) = .ok u ∧
      (((d.declaringType.isSome ∧ .qualifiedTypeNames ∉ f) ∨
          (d.declaringType = none ∧ .qualifiedTypeNames ∈ f)) →
        entityText f p (.member ⟨i, j⟩) = .ok (t ++ "." ++ u)) ∧
      (d.declaringType.isSome → d.ns ≠ "" → .qualifiedTypeNames ∈ f →
        entityText f p (.member ⟨i, j⟩) = .ok (d.ns ++ "." ++ (t ++ "." ++ u))) := by
  have hp := h.wellFormed
  obtain ⟨outers, houters⟩ := hp.exists_chain_outward hd
  obtain ⟨u, hbare, hqualified⟩ := hp.exists_entityText_member_eq hf hd hspelled houters hm
  have hnested : d.declaringType.isSome → outers ≠ [] := fun hsome hnil => by
    rw [houters.eq_nil_iff.1 hnil] at hsome
    cases hsome
  refine ⟨_, u, hp.entityText_type_eq hf hd hspelled houters, hbare, ?_, ?_⟩
  · rintro (⟨hsome, hshort⟩ | ⟨hnone, hlong⟩)
    · have hnaming : f.naming = .short := if_neg hshort
      rw [hqualified, hnaming, if_neg (hnested hsome)]
      rfl
    · have hnaming : f.naming = .qualified := if_pos hlong
      rw [hqualified, hnaming, if_pos (houters.eq_nil_iff.2 hnone)]
  · intro hsome hns hlong
    have hnaming : f.naming = .qualified := if_pos hlong
    rw [hqualified, hnaming, if_neg (hnested hsome), Naming.namespaceText, if_neg hns,
      String.empty_append]
    simp only [String.append_assoc]

/-- A generic structure with a method. -/
def entryDocument : TypeDocument where
  kind := .structType
  name := "Entry"
  typeParameters := [⟨"V", .invariant⟩]
  members := [{ kind := .method, name := "Touch" }]

/-- A generic class with the structure in it. -/
def cacheDocument : TypeDocument where
  kind := .classType
  name := "Cache"
  typeParameters := [⟨"K", .invariant⟩]
  ns := "Acme.Tools"
  nestedTypes := [entryDocument]

def cacheProject : Project := ((∅ : Project).perform (addType cacheDocument none)).2

def entryDefinition : TypeDefinition := entryDocument.definition ⟨1⟩ "Acme.Tools" (some ⟨0⟩)

theorem spelledByName_entryDefinition : cacheProject.SpelledByName entryDefinition := by
  refine ⟨by decide, fun ho => ?_, by decide, by decide, by decide⟩
  have houters : cacheProject.enclosing entryDefinition =
      .ok [(cacheDocument.definition ⟨0⟩ "Acme.Tools" none).withNested ⟨1⟩] := rfl
  obtain rfl := Except.ok.inj (houters.symm.trans ho)
  decide

/-- Names with all that belongs to them; those of types have their namespaces or not. -/
def nameFacets (qualified : Bool) : Facets :=
  .ofList ([.qualifiedMemberNames, .typeParameterList, .parameterList] ++
    if qualified then [.qualifiedTypeNames] else [])

theorem qualifiesMembers_nameFacets (qualified : Bool) :
    (nameFacets qualified).QualifiesMembers := by
  cases qualified <;> constructor <;> decide

/-- The method of the nested structure, without and with the namespace before it. -/
theorem qualified_member_text_entry :
    cacheProject.Reachable ∧ cacheProject.definition? ⟨1⟩ = some entryDefinition ∧
      (∃ m, cacheProject.member? ⟨⟨1⟩, 0⟩ = some m) ∧
      (∃ t u, entityText (nameFacets false) cacheProject (.type ⟨1⟩) = .ok t ∧
        entityText (nameFacets false).unqualified cacheProject (.member ⟨⟨1⟩, 0⟩) = .ok u ∧
        entityText (nameFacets false) cacheProject (.member ⟨⟨1⟩, 0⟩) = .ok (t ++ "." ++ u)) ∧
      ∃ t u, entityText (nameFacets true) cacheProject (.type ⟨1⟩) = .ok t ∧
        entityText (nameFacets true).unqualified cacheProject (.member ⟨⟨1⟩, 0⟩) = .ok u ∧
        entityText (nameFacets true) cacheProject (.member ⟨⟨1⟩, 0⟩) =
          .ok ("Acme.Tools" ++ "." ++ (t ++ "." ++ u)) := by
  have hr : cacheProject.Reachable := Reachable.empty.add cacheDocument none
  have hd : cacheProject.definition? ⟨1⟩ = some entryDefinition := rfl
  obtain ⟨m, hm⟩ : ∃ m, cacheProject.member? ⟨⟨1⟩, 0⟩ = some m :=
    Option.isSome_iff_exists.1 (by decide)
  have hshort : Facet.qualifiedTypeNames ∉ nameFacets false := by decide
  have hlong : Facet.qualifiedTypeNames ∈ nameFacets true := by decide
  have hns : entryDefinition.ns ≠ "" := by decide
  obtain ⟨t, u, ht, hu, htext, -⟩ := qualified_member_text hr hd spelledByName_entryDefinition hm
    (qualifiesMembers_nameFacets false)
  obtain ⟨t', u', ht', hu', -, htext'⟩ := qualified_member_text hr hd spelledByName_entryDefinition
    hm (qualifiesMembers_nameFacets true)
  exact ⟨hr, hd, ⟨m, hm⟩, ⟨t, u, ht, hu, htext (.inl ⟨rfl, hshort⟩)⟩, t', u', ht', hu',
    htext' rfl hns hlong⟩

/-- The type parameters of the enclosing class are in the text as well. -/
example : entityText (nameFacets true) cacheProject (.member ⟨⟨1⟩, 0⟩) =
    .ok "Acme.Tools.Cache<K>.Entry<V>.Touch()" := by
  decide +kernel

end Project

end QuickInfo
