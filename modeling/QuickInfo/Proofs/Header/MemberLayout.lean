import QuickInfo.Proofs.Header.Modifiers
import QuickInfo.Proofs.TypeText.Arrays

/-!
# The layout of member headers

The header of a member is put together from texts that are known elsewhere: those of its modifiers,
of references and of the declaring type. Each part is there if its facet is shown and the kind of
member has it.
-/
namespace QuickInfo

open Text

variable {f : Facets} {p : Project}

/-! ### Names -/

/-- The operators besides conversions: the names of their members, each with its token. -/
def operatorTokens : List (String × String) :=
  [("op_LogicalNot", "!"), ("op_OnesComplement", "~"), ("op_Increment", "++"),
   ("op_Decrement", "--"), ("op_True", "true"), ("op_False", "false"), ("op_UnaryPlus", "+"),
   ("op_UnaryNegation", "-"), ("op_Addition", "+"), ("op_Subtraction", "-"), ("op_Multiply", "*"),
   ("op_Division", "/"), ("op_Modulus", "%"), ("op_BitwiseAnd", "&"), ("op_BitwiseOr", "|"),
   ("op_ExclusiveOr", "^"), ("op_LeftShift", "<<"), ("op_RightShift", ">>"),
   ("op_Equality", "=="), ("op_Inequality", "!="), ("op_GreaterThan", ">"), ("op_LessThan", "<"),
   ("op_GreaterThanOrEqual", ">="), ("op_LessThanOrEqual", "<=")]

namespace Operator

theorem isConversion_iff {o : Operator} : o.isConversion = true ↔ o ∈ [implicit, explicit] := by
  cases o <;> decide

theorem mem_operatorTokens_iff {s token : String} :
    (s, token) ∈ operatorTokens ↔
      ∃ o : Operator, o ∉ [implicit, explicit] ∧ s = o.identifier ∧ token = o.token := by
  have htokens : operatorTokens = ((Enumeration.all : List Operator).filter fun o =>
      o ∉ [implicit, explicit]).map fun o => (o.identifier, o.token) := by decide +kernel
  simp only [htokens, List.mem_map, List.mem_filter, Enumeration.mem_all, true_and,
    decide_eq_true_eq, Prod.mk.injEq, @eq_comm _ s, @eq_comm _ token]

theorem ofIdentifier?_eq_none_iff {s : String} :
    ofIdentifier? s = none ↔
      s ∉ ["op_Implicit", "op_Explicit"] ∧ ∀ token, (s, token) ∉ operatorTokens := by
  have hconversion : s ∈ ["op_Implicit", "op_Explicit"] ↔
      ∃ o ∈ [implicit, explicit], s = identifier o := by
    simp only [List.mem_cons, List.not_mem_nil, or_false, exists_eq_or_imp, exists_eq_left]
    rfl
  simp only [Option.eq_none_iff_forall_ne_some, ne_eq, ofIdentifier?_eq_some_iff, hconversion,
    mem_operatorTokens_iff]
  constructor
  · intro h
    exact ⟨fun ⟨o, _, hs⟩ => h o hs, fun _ ⟨o, _, hs, _⟩ => h o hs⟩
  · rintro ⟨hnot, hnone⟩ o hs
    by_cases ho : o ∈ [implicit, explicit]
    · exact hnot ⟨o, ho, hs⟩
    · exact hnone o.token ⟨o, ho, hs, rfl⟩

end Operator

namespace MemberDocument

/-- What is shown as the name of a member. -/
inductive DisplayedAs (f : Facets) (p : Project) (declaring : TypeHeader) (m : MemberDocument) :
    String → Prop
  | indexer : m.kind = .indexer → DisplayedAs f p declaring m "this"
  | constructor : m.kind = .constructor → DisplayedAs f p declaring m declaring.name
  | destructor : m.kind = .destructor → DisplayedAs f p declaring m ("~" ++ declaring.name)
  | implicit : m.kind = .operator → m.name = "op_Implicit" →
    DisplayedAs f p declaring m ("implicit operator " ++ referenceText f p m.returnType)
  | explicit : m.kind = .operator → m.name = "op_Explicit" →
    DisplayedAs f p declaring m ("explicit operator " ++ referenceText f p m.returnType)
  | operator {token : String} : m.kind = .operator → (m.name, token) ∈ operatorTokens →
    DisplayedAs f p declaring m ("operator " ++ token)
  | unknownOperator : m.kind = .operator → m.name ∉ ["op_Implicit", "op_Explicit"] →
    (∀ token, (m.name, token) ∉ operatorTokens) →
    DisplayedAs f p declaring m ("operator " ++ m.name)
  | storedName : m.kind ∈ [.method, .property, .field, .event] → DisplayedAs f p declaring m m.name

variable {declaring : TypeHeader} {m : MemberDocument}

theorem memberNameText_operator (hkind : m.kind = .operator) {o : Operator}
    (hname : m.name = o.identifier) :
    memberNameText f p declaring m =
      if o.isConversion then o.token ++ " operator " ++ referenceText f p m.returnType
      else "operator " ++ o.token := by
  simp only [memberNameText, hkind, Operator.ofIdentifier?_eq_some_iff.2 hname]

theorem DisplayedAs.eq {name : String} (h : m.DisplayedAs f p declaring name) :
    memberNameText f p declaring m = name := by
  cases h with
  | indexer hkind => simp only [memberNameText, hkind]
  | constructor hkind => simp only [memberNameText, hkind]
  | destructor hkind => simp only [memberNameText, hkind]
  | implicit hkind hname => exact memberNameText_operator (o := .implicit) hkind hname
  | explicit hkind hname => exact memberNameText_operator (o := .explicit) hkind hname
  | operator hkind htoken =>
    obtain ⟨o, ho, hname, rfl⟩ := Operator.mem_operatorTokens_iff.1 htoken
    rw [memberNameText_operator hkind hname, if_neg (mt Operator.isConversion_iff.1 ho)]
  | unknownOperator hkind hconversion hnone =>
    have hunknown := Operator.ofIdentifier?_eq_none_iff.2 ⟨hconversion, hnone⟩
    simp only [memberNameText, hkind, hunknown]
  | storedName hkind =>
    simp only [List.mem_cons, List.not_mem_nil, or_false] at hkind
    rcases hkind with hkind | hkind | hkind | hkind <;> simp only [memberNameText, hkind]

theorem displayedAs_memberNameText (f : Facets) (p : Project) (declaring : TypeHeader)
    (m : MemberDocument) : m.DisplayedAs f p declaring (memberNameText f p declaring m) := by
  -- whatever is displayed is that text, so it is enough to find a line of the table
  have hfound : ∀ {name}, m.DisplayedAs f p declaring name →
      m.DisplayedAs f p declaring (memberNameText f p declaring m) := by
    intro name h
    rwa [h.eq]
  cases hkind : m.kind with
  | indexer => exact hfound (.indexer hkind)
  | constructor => exact hfound (.constructor hkind)
  | destructor => exact hfound (.destructor hkind)
  | operator =>
    cases ho : Operator.ofIdentifier? m.name with
    | none =>
      obtain ⟨hconversion, hnone⟩ := Operator.ofIdentifier?_eq_none_iff.1 ho
      exact hfound (.unknownOperator hkind hconversion hnone)
    | some o =>
      have hname := Operator.ofIdentifier?_eq_some_iff.1 ho
      by_cases himplicit : o = .implicit
      · subst himplicit
        exact hfound (.implicit hkind hname)
      · by_cases hexplicit : o = .explicit
        · subst hexplicit
          exact hfound (.explicit hkind hname)
        · have htoken := Operator.mem_operatorTokens_iff.2
            ⟨o, by simp [himplicit, hexplicit], hname, rfl⟩
          exact hfound (.operator hkind htoken)
  | method | property | field | event => exact hfound (.storedName (by rw [hkind]; decide))

/-- Members that have no type before their name. -/
def IsUntyped (m : MemberDocument) : Prop :=
  m.kind = .constructor ∨ m.kind = .destructor ∨
    (m.kind = .operator ∧ m.name ∈ ["op_Implicit", "op_Explicit"])

instance (m : MemberDocument) : Decidable m.IsUntyped :=
  inferInstanceAs (Decidable (_ ∨ _ ∨ _))

theorem isConversion_iff :
    m.isConversion = true ↔ m.kind = .operator ∧ m.name ∈ ["op_Implicit", "op_Explicit"] := by
  rw [isConversion, operator?]
  by_cases hkind : m.kind = .operator
  · rw [if_pos hkind, and_iff_right hkind, Option.any_eq_true]
    simp only [Operator.ofIdentifier?_eq_some_iff, Operator.isConversion_iff, List.mem_cons,
      List.not_mem_nil, or_false]
    constructor
    · rintro ⟨o, ho, rfl | rfl⟩
      · exact .inl ho
      · exact .inr ho
    · rintro (hname | hname)
      · exact ⟨.implicit, hname, .inl rfl⟩
      · exact ⟨.explicit, hname, .inr rfl⟩
  · simp [hkind]

theorem hasReturnType_iff : m.hasReturnType = true ↔ ¬m.IsUntyped := by
  simp only [hasReturnType, IsUntyped, ← isConversion_iff, Bool.not_eq_true', Bool.or_eq_false_iff,
    decide_eq_false_iff_not, not_or, Bool.not_eq_true, and_assoc]

end MemberDocument

/-! ### Parameters -/

/-- The word before a parameter: its modifier, or `ref` before a reference to a variable without a
modifier. -/
def Parameter.shownModifier (a : Parameter) : Option ParameterModifier :=
  match a.modifier, a.type with
  | none, .byReference _ => some .ref
  | modifier, _ => modifier

/-- The word of a modifier with a space after it, if there is one. -/
def parameterModifierText : Option ParameterModifier → String
  | none => ""
  | some .ref => "ref "
  | some .out => "out "
  | some .params => "params "
  | some .this => "this "

theorem ParameterModifier.text_eq (m : Option ParameterModifier) :
    text m = parameterModifierText m := by
  rcases m with _ | m
  · rfl
  · cases m <;> decide

def parameterText (f : Facets) (p : Project) (a : Parameter) : String :=
  parameterModifierText a.shownModifier ++ referenceText f p a.type ++
    f.shown .parameterNames (" " ++ a.name)

/-- A name never stands for a reference to a variable. -/
theorem Project.resolveNamed_ne_byReference (p : Project) (name : String)
    (arguments : List ResolvedType) (t : ResolvedType) :
    p.resolveNamed name arguments ≠ .byReference t := by
  unfold resolveNamed
  split
  · exact ResolvedType.noConfusion
  · dsimp only
    split
    · split <;> exact ResolvedType.noConfusion
    · exact ResolvedType.noConfusion

theorem modifier_declareParameter_eq (s : Switches) (p : Project) (a : Parameter) :
    (s.declareParameter p a).modifier = a.shownModifier := by
  cases htype : a.type with
  | byReference element =>
    cases hmodifier : a.modifier <;>
      simp [Switches.declareParameter, Parameter.shownModifier, htype, hmodifier, Project.resolve]
  | named name arguments =>
    rw [modifier_declareParameter s fun t => htype ▸ p.resolveNamed_ne_byReference _ _ t]
    simp [Parameter.shownModifier, htype]
  | typeParameter | array | pointer =>
    rw [modifier_declareParameter s fun t => htype ▸ ResolvedType.noConfusion]
    simp [Parameter.shownModifier, htype]

/-- A parameter is its modifier, its type and its name. -/
theorem parameter_eq_parameterText (f : Facets) (p : Project) (a : Parameter) :
    Spacing.standard.parameter (f.switches.declareParameter p a) = parameterText f p a := by
  rw [standard_parameter, modifier_declareParameter_eq, ParameterModifier.text_eq, parameterText]

/-- The parameter list of a member of the given kind: parameters stand in parentheses, those of an
indexer in brackets, and some kinds have none. -/
def parameterListText (f : Facets) (p : Project) (m : MemberDocument) : String :=
  let parameters := ", ".intercalate (m.parameters.map (parameterText f p))
  match m.kind with
  | .method | .constructor | .destructor | .operator => "(" ++ parameters ++ ")"
  | .indexer => "[" ++ parameters ++ "]"
  | .property | .field | .event => ""

theorem parameterListText_memberDeclaration (f : Facets) (p : Project) (inInterface : Bool)
    (m : MemberDocument) :
    (f.switches.memberDeclaration p inInterface m).parameterListText = parameterListText f p m := by
  have hparameters : Spacing.standard.parameters (m.parameters.map (f.switches.declareParameter p)) =
      ", ".intercalate (m.parameters.map (parameterText f p)) := by
    rw [Spacing.parameters, commaSeparated, List.map_map]
    exact congrArg _ (List.map_congr_left fun a _ => parameter_eq_parameterText f p a)
  rw [parameterListText, ← hparameters]
  cases hkind : m.kind <;>
    simp [MemberDeclaration.parameterListText, MemberDeclaration.brackets,
      MemberDeclaration.isIndexer, Switches.memberDeclaration, hkind, MemberKind.isParameterized]

/-! ### Type parameters -/

/-- The name of a type parameter behind the word for its variance. -/
def typeParameterText : TypeParameter → String
  | ⟨name, .invariant⟩ => name
  | ⟨name, .covariant⟩ => "out " ++ name
  | ⟨name, .contravariant⟩ => "in " ++ name

/-- The type parameters in angle brackets, if there are any. -/
def typeParameterListText (as : List TypeParameter) : String :=
  if as = [] then "" else "<" ++ ", ".intercalate (as.map typeParameterText) ++ ">"

theorem TypeParameter.text_eq (a : TypeParameter) : a.text = typeParameterText a := by
  obtain ⟨name, variance⟩ := a
  cases variance with
  | invariant => exact String.empty_append
  | covariant | contravariant => rfl

theorem standard_typeParameters (as : List TypeParameter) :
    Spacing.standard.typeParameters as = typeParameterListText as := by
  have htexts : as.map TypeParameter.text = as.map typeParameterText :=
    List.map_congr_left fun a _ => a.text_eq
  rw [Spacing.typeParameters, htexts, typeParameterListText]
  cases as <;> rfl

/-! ### Headers -/

/-- The type of a member with a space after it. -/
def memberTypeText (f : Facets) (p : Project) (m : MemberDocument) : String :=
  if m.IsUntyped then "" else referenceText f p m.returnType ++ " "

theorem returnTypeText_eq_memberTypeText (f : Facets) (p : Project) (inInterface : Bool)
    (m : MemberDocument) :
    (f.switches.memberDeclaration p inInterface m).returnTypeText = memberTypeText f p m := by
  by_cases huntyped : m.IsUntyped
  · have hnone : ¬m.hasReturnType = true := fun h => MemberDocument.hasReturnType_iff.1 h huntyped
    rw [memberTypeText, if_pos huntyped, MemberDeclaration.returnTypeText,
      Switches.memberDeclaration, if_neg hnone]
  · rw [memberTypeText, if_neg huntyped,
      returnTypeText_memberDeclaration f p inInterface (MemberDocument.hasReturnType_iff.2 huntyped)]

/-- The parts of a member header one after the other: modifier words, type, declaring type, displayed
name, type parameters and parameters, each if its facet is shown. -/
def memberLayout (f : Facets) (p : Project) (t : DefinitionType) (m : MemberDocument)
    (words : List Modifier) (name : String) : String :=
  String.join
    [f.shown .modifiers (Modifier.wordsText words),
     f.shown .returnType (memberTypeText f p m),
     f.shown .qualifiedMemberNames (typeText f (.definition t) ++ "."),
     name,
     f.shown .typeParameterList
       (if m.kind = .method then typeParameterListText m.typeParameters else ""),
     f.shown .parameterList (parameterListText f p m)]

theorem memberHeaderInside_eq_layout (f : Facets) (p : Project) (declaring : TypeHeader)
    (t : DefinitionType) (m : MemberDocument) :
    memberHeaderInside f p declaring t m =
      trimEnd (memberLayout f p t m
        (f.switches.memberModifiers m (declaring.kind = .interfaceType)).toList
        (memberNameText f p declaring m)) := by
  have htypeParameters : Spacing.standard.typeParameters
      (if m.kind = .method then m.typeParameters else []) =
        if m.kind = .method then typeParameterListText m.typeParameters else "" := by
    rw [standard_typeParameters]
    split <;> rfl
  rw [memberHeaderInside]
  simp only [parameterListText_memberDeclaration, returnTypeText_eq_memberTypeText, memberLayout,
    String.join_cons, String.join_nil, String.append_empty, String.append_assoc,
    ← Modifiers.text_eq]
  simp only [Switches.memberDeclaration, htypeParameters]

/-! ### Stored names -/

/-- The member without its stored name, if it is of a kind that does not show it. -/
def MemberDocument.unnamed (m : MemberDocument) : MemberDocument :=
  { m with
    name := if m.kind ∈ [.indexer, .constructor, .destructor] then "" else m.name }

def Member.unnamed (m : Member) : Member :=
  { m with toMemberDocument := m.toMemberDocument.unnamed }

def TypeDefinition.unnamed (d : TypeDefinition) : TypeDefinition :=
  { d with members := d.members.map Member.unnamed }

theorem memberHeaderInside_unnamed (f : Facets) (p : Project) (declaring : TypeHeader)
    (t : DefinitionType) (m : MemberDocument) :
    memberHeaderInside f p declaring t m.unnamed = memberHeaderInside f p declaring t m := by
  have hname : memberNameText f p declaring m.unnamed = memberNameText f p declaring m := by
    cases hkind : m.kind <;> simp [memberNameText, MemberDocument.unnamed, hkind]
  have htype : memberTypeText f p m.unnamed = memberTypeText f p m := by
    cases hkind : m.kind <;>
      simp [memberTypeText, MemberDocument.IsUntyped, MemberDocument.unnamed, hkind]
  rw [memberHeaderInside_eq_layout, memberHeaderInside_eq_layout, memberLayout, memberLayout, hname,
    htype]
  rfl

theorem keepsHeaders_unnamed (f : Facets) :
    Project.KeepsHeaders f TypeDefinition.unnamed Member.unnamed where
  declaringType_eq _ := rfl
  ns_eq _ := rfl
  name_eq _ := rfl
  ownArguments_eq _ := rfl
  kind_eq _ := rfl
  typeModifiers_eq _ := rfl
  typeParameters_eq _ := rfl
  members_eq _ := rfl
  memberHeader_eq p d t m := memberHeaderInside_unnamed f p d.toTypeHeader t m.toMemberDocument

/-! ### Texts -/

namespace Project

/-- A structure with a conversion, an indexer with the given name and a parameter by reference, and a
generic method. -/
def meterDocument (item : String) : TypeDocument where
  kind := .structType
  name := "Meter"
  ns := "Acme"
  members :=
    [{ kind := .operator, name := "op_Implicit", accessibility := .publicAccess,
       modifiers := [.static], returnType := .named "System.Double" [],
       parameters := [⟨"value", .named "Acme.Meter" [], none⟩] },
     { kind := .indexer, name := item, returnType := .named "System.Int32" [],
       parameters := [⟨"index", .byReference (.named "System.Int32" []), none⟩] },
     { kind := .method, name := "Read", returnType := .typeParameter "T",
       parameters := [⟨"target", .typeParameter "T", some .out⟩],
       typeParameters := [⟨"T", .invariant⟩] }]

def meterProject (item : String) : Project :=
  ((∅ : Project).perform (addType (meterDocument item) none)).2

/-- An indexer has brackets, and a parameter by reference is told by `ref`. -/
example : entityText .standard (meterProject "Item") (.member ⟨⟨0⟩, 1⟩) =
    .ok "int this[ref int index]" := by
  decide +kernel

end Project

end QuickInfo
