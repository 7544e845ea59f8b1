import QuickInfo.Header

/-!
# Headers that are there

What has to be found and built for an entity to have a declaration text, and which text it is then.
-/
namespace QuickInfo

open Text

variable {f : Facets} {p : Project} {t : String}

theorem Facets.shown_of_mem {a : Facet} (h : a ∈ f) (text : String) : f.shown a text = text :=
  if_pos h

theorem Facets.shown_of_notMem {a : Facet} (h : a ∉ f) (text : String) : f.shown a text = "" :=
  if_neg h

theorem declareType_eq_ok_iff {s : Switches} {d : TypeDefinition} {declaration : TypeDeclaration} :
    s.declareType d = .ok declaration ↔
      ∃ kind, d.kind.header? = some kind ∧
        declaration = ⟨s.typeModifiers d.toTypeHeader, kind, d.name, d.typeParameters⟩ := by
  unfold Switches.declareType
  cases d.kind.header? with
  | none => simp
  | some kind => simp [eq_comm]

theorem typeHeaderText_eq_ok_iff {d : TypeDefinition} :
    typeHeaderText f p d = .ok t ↔
      ∃ declaration keyword outers, f.switches.declareType d = .ok declaration ∧
        keywordText f declaration = .ok keyword ∧ p.enclosing d = .ok outers ∧
        t = trimEnd (f.shown .modifiers declaration.modifiers.text ++ keyword ++
          typeNameText f outers d) := by
  unfold typeHeaderText
  cases hd : f.switches.declareType d with
  | error e => simp [bind, Except.bind]
  | ok declaration =>
    cases hk : keywordText f declaration with
    | error e => simp [bind, Except.bind, hk]
    | ok keyword =>
      cases ho : p.enclosing d with
      | error id => simp [bind, Except.bind, hk]
      | ok outers => simp [bind, Except.bind, pure, Except.pure, hk, eq_comm]

theorem memberHeaderText_eq_ok_iff {m : Member} :
    memberHeaderText f p m = .ok t ↔
      ∃ declaring declaration qualification, p.definition? m.id.declaringType = some declaring ∧
        declaration =
          f.switches.memberDeclaration p (declaring.kind = .interfaceType) m.toMemberDocument ∧
        qualificationText f p declaring m.name = .ok qualification ∧
        t = trimEnd (f.shown .modifiers declaration.modifiers.text ++
          f.shown .returnType declaration.returnTypeText ++ qualification ++
          memberNameText f p declaring.toTypeHeader m.toMemberDocument ++
          f.shown .typeParameterList (Spacing.standard.typeParameters declaration.typeParameters) ++
          f.shown .parameterList declaration.parameterListText) := by
  unfold memberHeaderText Switches.declareMember
  cases hd : p.definition? m.id.declaringType with
  | none => simp [bind, Except.bind]
  | some declaring =>
    cases hq : qualificationText f p declaring m.name with
    | error e => simp [bind, Except.bind, hq]
    | ok qualification => simp [bind, Except.bind, pure, Except.pure, hq, eq_comm]

section Entity

variable {i : TypeId} {j : MemberId} {d : TypeDefinition} {m : Member}

theorem entityText_type (h : p.definition? i = some d) :
    entityText f p (.type i) = typeHeaderText f p d := by
  simp only [entityText, h]

theorem entityText_member (h : p.member? j = some m) :
    entityText f p (.member j) = memberHeaderText f p m := by
  simp only [entityText, h]

theorem entityText_unknownType (h : p.definition? i = none) :
    entityText f p (.type i) = .error (.unknownEntity (.type i)) := by
  simp only [entityText, h]

theorem entityText_unknownMember (h : p.member? j = none) :
    entityText f p (.member j) = .error (.unknownEntity (.member j)) := by
  simp only [entityText, h]

end Entity

/-- The header of a type inside the given types, the innermost first. -/
def typeHeaderInside (f : Facets) (outers : List TypeDefinition) (d : TypeDefinition) :
    Except DeclarationError String := do
  let declaration ← f.switches.declareType d
  let keyword ← keywordText f declaration
  return trimEnd (f.shown .modifiers declaration.modifiers.text ++ keyword ++
    typeNameText f outers d)

theorem typeHeaderText_eq_inside {d : TypeDefinition} {outers : List TypeDefinition}
    (h : p.enclosing d = .ok outers) : typeHeaderText f p d = typeHeaderInside f outers d := by
  unfold typeHeaderText typeHeaderInside
  simp only [h]

/-- The header of a member of a type with the given header, which declares the type `t`. -/
def memberHeaderInside (f : Facets) (p : Project) (declaring : TypeHeader) (t : DefinitionType)
    (m : MemberDocument) : String :=
  let declaration := f.switches.memberDeclaration p (declaring.kind = .interfaceType) m
  trimEnd (f.shown .modifiers declaration.modifiers.text ++
    f.shown .returnType declaration.returnTypeText ++
    f.shown .qualifiedMemberNames (typeText f (.definition t) ++ ".") ++
    memberNameText f p declaring m ++
    f.shown .typeParameterList (Spacing.standard.typeParameters declaration.typeParameters) ++
    f.shown .parameterList declaration.parameterListText)

theorem qualificationText_eq {d : TypeDefinition} {u : DefinitionType}
    (h : p.definitionType? d.id = some u) (name : String) :
    qualificationText f p d name =
      .ok (f.shown .qualifiedMemberNames (typeText f (.definition u) ++ ".")) := by
  rw [qualificationText, Facets.shown]
  by_cases hf : f.has .qualifiedMemberNames <;> simp [hf, h]

theorem memberHeaderText_eq_inside {m : Member} {d : TypeDefinition} {u : DefinitionType}
    (hd : p.definition? m.id.declaringType = some d) (hu : p.definitionType? d.id = some u) :
    memberHeaderText f p m =
      .ok (memberHeaderInside f p d.toTypeHeader u m.toMemberDocument) :=
  memberHeaderText_eq_ok_iff.2 ⟨d, _, _, hd, rfl, qualificationText_eq hu m.name, rfl⟩

end QuickInfo
