import QuickInfo.Proofs.Header.View

/-!
# What facets hide

A facet that is not shown hides its part of types and members completely: projects that differ in
hidden parts only have the same declaration texts.
-/
namespace QuickInfo

/-- A value if the facet is shown, and a blank otherwise. -/
def Facets.seen {α : Type} (f : Facets) (a : Facet) (value blank : α) : α :=
  if f.has a then value else blank

/-- The accessibility as far as it is shown: it is a modifier among others. -/
def Accessibility.visible (f : Facets) (a : Accessibility) : Accessibility :=
  f.seen .modifiers (f.seen .accessibility a .unspecified) .unspecified

def Parameter.visible (f : Facets) (a : Parameter) : Parameter :=
  { a with name := f.seen .parameterNames a.name "" }

def TypeParameter.visible (f : Facets) (a : TypeParameter) : TypeParameter :=
  { a with variance := f.seen .typeParameterList a.variance .invariant }

/-- The member as far as it is shown. A conversion is named by the type that it converts to. -/
def MemberDocument.visible (f : Facets) (m : MemberDocument) : MemberDocument :=
  { m with
    accessibility := m.accessibility.visible f
    modifiers := f.seen .modifiers m.modifiers []
    returnType := if m.isConversion then m.returnType else f.seen .returnType m.returnType .void
    parameters := f.seen .parameterList (m.parameters.map (Parameter.visible f)) []
    typeParameters := f.seen .typeParameterList m.typeParameters [] }

/-- The header as far as it is shown. The names of type parameters are arguments wherever the type
qualifies the name of a member, so they are not hidden. -/
def TypeHeader.visible (f : Facets) (h : TypeHeader) : TypeHeader :=
  { h with
    accessibility := h.accessibility.visible f
    modifiers := f.seen .modifiers h.modifiers []
    typeParameters := h.typeParameters.map (TypeParameter.visible f) }

def Member.visible (f : Facets) (m : Member) : Member :=
  { m with toMemberDocument := m.toMemberDocument.visible f }

def TypeDefinition.visible (f : Facets) (d : TypeDefinition) : TypeDefinition :=
  { d with
    toTypeHeader := d.toTypeHeader.visible f
    members := d.members.map (Member.visible f) }

namespace Facets

variable {f : Facets} {a : Facet}

theorem seen_of_has (h : f.has a = true) {α : Type} (value blank : α) :
    f.seen a value blank = value :=
  if_pos h

theorem shown_congr {s t : String} (h : f.has a = true → s = t) : f.shown a s = f.shown a t := by
  by_cases ha : f.has a
  · rw [h ha]
  · rw [shown, shown, if_neg ha, if_neg ha]

end Facets

section Visible

variable {f : Facets}

theorem ofAccessibility_visible (hf : f.has .modifiers = true) (told : Bool) (a : Accessibility) :
    (if f.has .accessibility && told then Modifiers.ofAccessibility (a.visible f) else ∅) =
      if f.has .accessibility && told then Modifiers.ofAccessibility a else ∅ := by
  cases ha : f.has .accessibility with
  | false => rfl
  | true => rw [Accessibility.visible, Facets.seen_of_has hf, Facets.seen_of_has ha]

theorem typeModifiers_visible (hf : f.has .modifiers = true) (h : TypeHeader) :
    f.switches.typeModifiers (h.visible f) = f.switches.typeModifiers h := by
  have hown : (h.visible f).ownModifiers = h.ownModifiers := by
    simp only [TypeHeader.ownModifiers, TypeHeader.visible, Facets.seen_of_has hf]
  have haccess := ofAccessibility_visible hf true h.accessibility
  simp only [Bool.and_true] at haccess
  rw [Switches.typeModifiers, Switches.typeModifiers, hown]
  exact congrArg (· ∪ _) haccess

theorem typeParameters_visible (hf : f.has .typeParameterList = true) (h : TypeHeader) :
    (h.visible f).typeParameters = h.typeParameters := by
  have hsame : TypeParameter.visible f = id := by
    funext a
    simp only [TypeParameter.visible, Facets.seen_of_has hf, id]
  rw [TypeHeader.visible, hsame, List.map_id]

theorem memberModifiers_visible (hf : f.has .modifiers = true) (m : MemberDocument)
    (inInterface : Bool) :
    f.switches.memberModifiers (m.visible f) inInterface =
      f.switches.memberModifiers m inInterface := by
  have hmodifiers : (m.visible f).modifiers = m.modifiers := Facets.seen_of_has hf _ _
  have hkind : (m.visible f).kind = m.kind := rfl
  have hown : (m.visible f).ownModifiers inInterface = m.ownModifiers inInterface := by
    simp only [MemberDocument.ownModifiers, hmodifiers]
  have haccess := ofAccessibility_visible hf
    (!inInterface && !(m.kind = .constructor && m.modifiers.contains .static)) m.accessibility
  rw [← Bool.and_assoc] at haccess
  rw [Switches.memberModifiers, Switches.memberModifiers, hown, hkind, hmodifiers]
  split
  · rfl
  · exact congrArg (· ∪ _) haccess

theorem returnTypeText_visible (hf : f.has .returnType = true) (p : Project) (inInterface : Bool)
    (m : MemberDocument) :
    (f.switches.memberDeclaration p inInterface (m.visible f)).returnTypeText =
      (f.switches.memberDeclaration p inInterface m).returnTypeText := by
  have hreturn : (m.visible f).returnType = m.returnType := by
    rw [MemberDocument.visible, Facets.seen_of_has hf, ite_self]
  have hhas : (m.visible f).hasReturnType = m.hasReturnType := rfl
  simp only [MemberDeclaration.returnTypeText, Switches.memberDeclaration, hreturn, hhas]

/-- A member is named by its return type only if it is a conversion. -/
theorem memberNameText_visible (p : Project) (declaring : TypeHeader) (m : MemberDocument) :
    memberNameText f p (declaring.visible f) (m.visible f) = memberNameText f p declaring m := by
  unfold memberNameText
  have hkind : (m.visible f).kind = m.kind := rfl
  have hname : (m.visible f).name = m.name := rfl
  rw [hkind, hname]
  cases hk : m.kind with
  | operator =>
    cases ho : Operator.ofIdentifier? m.name with
    | none => rfl
    | some o =>
      by_cases hc : o.isConversion
      · have hreturn : (m.visible f).returnType = m.returnType := by
          have hconversion : m.isConversion = true := by
            simp only [MemberDocument.isConversion, MemberDocument.operator?, hk, ho, if_true,
              Option.any_some, hc]
          exact if_pos hconversion
        simp only [hreturn]
      · exact (if_neg hc).trans (if_neg hc).symm
  | _ => rfl

theorem declareParameter_visible (p : Project) (a : Parameter) :
    f.switches.declareParameter p (a.visible f) = f.switches.declareParameter p a := by
  have hname : (if f.switches.parameterNames then some (a.visible f).name else none) =
      if f.switches.parameterNames then some a.name else none := by
    by_cases hf : f.has .parameterNames
    · rw [Parameter.visible, Facets.seen_of_has hf]
    · rw [Facets.switches, if_neg hf, if_neg hf]
  simp only [Switches.declareParameter, hname]
  rfl

theorem parameterListText_visible (hf : f.has .parameterList = true) (p : Project)
    (inInterface : Bool) (m : MemberDocument) :
    (f.switches.memberDeclaration p inInterface (m.visible f)).parameterListText =
      (f.switches.memberDeclaration p inInterface m).parameterListText := by
  have hparameters : (m.visible f).parameters.map (f.switches.declareParameter p) =
      m.parameters.map (f.switches.declareParameter p) := by
    rw [MemberDocument.visible, Facets.seen_of_has hf, List.map_map]
    exact List.map_congr_left fun a _ => declareParameter_visible p a
  simp only [MemberDeclaration.parameterListText, Switches.memberDeclaration, hparameters]
  rfl

theorem memberHeaderInside_visible (p : Project) (declaring : TypeHeader) (t : DefinitionType)
    (m : MemberDocument) :
    memberHeaderInside f p (declaring.visible f) t (m.visible f) =
      memberHeaderInside f p declaring t m := by
  -- each part of the header is left out, or made of what is visible
  let declared := f.switches.memberDeclaration p (declaring.kind = .interfaceType)
  have hmodifiers : f.shown .modifiers (declared (m.visible f)).modifiers.text =
      f.shown .modifiers (declared m).modifiers.text := Facets.shown_congr fun hf =>
    congrArg Modifiers.text (memberModifiers_visible hf m _)
  have hreturn : f.shown .returnType (declared (m.visible f)).returnTypeText =
      f.shown .returnType (declared m).returnTypeText := Facets.shown_congr fun hf =>
    returnTypeText_visible hf p _ m
  have hname := memberNameText_visible (f := f) p declaring m
  have htypes : f.shown .typeParameterList
      (Spacing.standard.typeParameters (declared (m.visible f)).typeParameters) =
        f.shown .typeParameterList (Spacing.standard.typeParameters (declared m).typeParameters) := by
    refine Facets.shown_congr fun hf => congrArg Spacing.standard.typeParameters ?_
    have hown : (m.visible f).typeParameters = m.typeParameters := Facets.seen_of_has hf _ _
    exact congrArg (fun l => if m.kind = .method then l else []) hown
  have hparameters : f.shown .parameterList (declared (m.visible f)).parameterListText =
      f.shown .parameterList (declared m).parameterListText := Facets.shown_congr fun hf =>
    parameterListText_visible hf p _ m
  have hdeclared : f.switches.memberDeclaration p ((declaring.visible f).kind = .interfaceType) =
      declared := rfl
  rw [memberHeaderInside, memberHeaderInside, hdeclared, hname]
  simp only [hmodifiers, hreturn, htypes, hparameters]
  rfl

end Visible

theorem keepsHeaders_visible (f : Facets) :
    Project.KeepsHeaders f (TypeDefinition.visible f) (Member.visible f) where
  declaringType_eq _ := rfl
  ns_eq _ := rfl
  name_eq _ := rfl
  ownArguments_eq _ := List.map_map
  kind_eq _ := rfl
  typeModifiers_eq d := Facets.shown_congr fun hf =>
    congrArg Modifiers.text (typeModifiers_visible hf d.toTypeHeader)
  typeParameters_eq d := Facets.shown_congr fun hf =>
    congrArg Spacing.standard.typeParameters (typeParameters_visible hf d.toTypeHeader)
  members_eq _ := rfl
  memberHeader_eq p d t m := memberHeaderInside_visible p d.toTypeHeader t m.toMemberDocument

/-- Projects that are the same as far as they are shown have the same declaration texts, and lack the
same ones. -/
theorem entityText_eq_of_visible_eq {f : Facets} {p q : Project} (hp : p.Reachable)
    (hq : q.Reachable)
    (h : p.types.toList.map (TypeDefinition.visible f) =
      q.types.toList.map (TypeDefinition.visible f))
    (e : Entity) : entityText f p e = entityText f q e :=
  hq.wellFormed.entityText_eq hp.wellFormed (keepsHeaders_visible f)
    (Project.within_of_map_eq h.symm) (Project.within_of_map_eq h) e

/-- A class with a type parameter and a method that has one parameter. -/
def boxDocument (accessibility : Accessibility) (modifiers : List EntityModifier)
    (variance : Variance) (returnType : TypeReference) (parameter : Parameter) : TypeDocument where
  kind := .classType
  name := "Box"
  accessibility := accessibility
  modifiers := modifiers
  typeParameters := [⟨"T", variance⟩]
  ns := "Acme"
  members :=
    [{ kind := .method, name := "Get", accessibility := accessibility, modifiers := modifiers,
       returnType := returnType, parameters := [parameter], typeParameters := [⟨"U", variance⟩] }]

/-- Accessibility and member names alone show no difference between two classes that differ in all
other respects, although the accessibilities differ too. -/
theorem entityText_eq_of_visible_eq_box :
    ∃ p q : Project, p.Reachable ∧ q.Reachable ∧
      (∀ e, entityText (.ofList [.accessibility, .qualifiedMemberNames]) p e =
        entityText (.ofList [.accessibility, .qualifiedMemberNames]) q e) ∧
      entityText .everything p (.member ⟨⟨0⟩, 0⟩) =
        .ok "public static T Acme.Box<T>.Get<in U>(T item)" ∧
      entityText .everything q (.member ⟨⟨0⟩, 0⟩) =
        .ok "private sealed void Acme.Box<T>.Get<U>(out int[] items)" := by
  let box := boxDocument .publicAccess [.static] .contravariant (.typeParameter "T")
    ⟨"item", .typeParameter "T", none⟩
  let other := boxDocument .privateAccess [.sealed] .invariant .void
    ⟨"items", .array (.named "System.Int32" []) 1, some .out⟩
  let p := ((∅ : Project).perform (Project.addType box none)).2
  let q := ((∅ : Project).perform (Project.addType other none)).2
  have hp : p.Reachable := Project.Reachable.empty.add _ none
  have hq : q.Reachable := Project.Reachable.empty.add _ none
  have hbox : p.types.toList = [box.definition ⟨0⟩ "Acme" none] := rfl
  have hother : q.types.toList = [other.definition ⟨0⟩ "Acme" none] := rfl
  refine ⟨p, q, hp, hq, entityText_eq_of_visible_eq hp hq ?_, ?_, ?_⟩
  · rw [hbox, hother]
    rfl
  · decide +kernel
  · decide +kernel

end QuickInfo
