import QuickInfo.Proofs.Header
import QuickInfo.Proofs.Project.WellFormed

/-!
# Headers that are missing

An entity has no declaration text only if it is not part of the project or is a type that has no
header. No link to an enclosing or declaring type is ever the reason, since in a project all links
lead to types.
-/
namespace QuickInfo

/-- Why an entity has no declaration text: it is not there, or it is a delegate, or it is a module
and the keyword of its header is wanted. -/
inductive LacksText (f : Facets) (p : Project) : Entity → DeclarationError → Prop where
  | unknownType {id : TypeId} :
    p.definition? id = none → LacksText f p (.type id) (.unknownEntity (.type id))
  | unknownMember {id : MemberId} :
    p.member? id = none → LacksText f p (.member id) (.unknownEntity (.member id))
  | delegateType {id : TypeId} {d : TypeDefinition} :
    p.definition? id = some d → d.kind = .delegateType →
      LacksText f p (.type id) (.delegateHeader d.name)
  | moduleType {id : TypeId} {d : TypeDefinition} :
    p.definition? id = some d → d.kind = .moduleType → .definitionKeyword ∈ f →
      LacksText f p (.type id) (.moduleKeyword d.name)

variable {f : Facets} {p : Project} {c : DeclarationError}

/-- A type that is there has no header for its kind only. -/
theorem typeHeaderInside_eq_error_iff {outers : List TypeDefinition} {d : TypeDefinition} :
    typeHeaderInside f outers d = .error c ↔
      (d.kind = .delegateType ∧ c = .delegateHeader d.name) ∨
        (d.kind = .moduleType ∧ .definitionKeyword ∈ f ∧ c = .moduleKeyword d.name) := by
  unfold typeHeaderInside Switches.declareType keywordText
  by_cases hf : f.has .definitionKeyword <;> cases d.kind <;>
    simp [FlagSet.mem_def, hf, TypeKind.header?, HeaderKind.keyword?, bind, Except.bind, pure,
      Except.pure, eq_comm]

namespace Project.Arena

variable (hp : p.Arena)

include hp

theorem typeHeaderText_eq {i : TypeId} {d : TypeDefinition} (hd : p.definition? i = some d) :
    ∃ outers, p.Chain d.declaringType outers ∧
      typeHeaderText f p d = typeHeaderInside f outers d := by
  obtain ⟨outers, houters⟩ := hp.exists_chain_outward hd
  exact ⟨outers, houters, typeHeaderText_eq_inside (hp.enclosing_eq houters)⟩

/-- A member stands at its identifier in a type that is there and can be written. -/
theorem memberHeaderText_eq {i : MemberId} {m : Member} (hm : p.member? i = some m) :
    ∃ d u, p.definition? i.declaringType = some d ∧ d.members[i.index]? = some m ∧
      p.definitionType? i.declaringType = some u ∧
      memberHeaderText f p m =
        .ok (memberHeaderInside f p d.toTypeHeader u m.toMemberDocument) := by
  obtain ⟨d, hd, hmember⟩ := Option.bind_eq_some_iff.1 hm
  obtain ⟨u, hu, -⟩ := hp.exists_definitionType? hd
  have hid : m.id = i := hp.memberId_eq hd hmember
  refine ⟨d, u, hd, hmember, hu, memberHeaderText_eq_inside (hid ▸ hd) ?_⟩
  rw [hp.id_eq hd]
  exact hu

/-- The same declaring type stands in the header of a member whichever facets are shown. -/
theorem exists_memberHeaderInside {i : MemberId} {d : TypeDefinition}
    (hd : p.definition? i.declaringType = some d) {m : Member} (hm : p.member? i = some m) :
    ∃ t, p.definitionType? i.declaringType = some t ∧ ∀ f : Facets, entityText f p (.member i) =
      .ok (memberHeaderInside f p d.toTypeHeader t m.toMemberDocument) := by
  obtain ⟨t, ht, -⟩ := hp.exists_definitionType? hd
  refine ⟨t, ht, fun f => ?_⟩
  obtain ⟨e, u, he, -, hu, heq⟩ := hp.memberHeaderText_eq (f := f) hm
  obtain rfl := Option.some.inj (hd.symm.trans he)
  obtain rfl := Option.some.inj (ht.symm.trans hu)
  rw [entityText_member hm, heq]

theorem exists_entityText_member (f : Facets) {i : MemberId} {m : Member}
    (hm : p.member? i = some m) : ∃ t, entityText f p (.member i) = .ok t := by
  obtain ⟨d, u, -, -, -, heq⟩ := hp.memberHeaderText_eq (f := f) hm
  exact ⟨_, (entityText_member hm).trans heq⟩

theorem entityText_type_eq_error_iff {i : TypeId} :
    entityText f p (.type i) = .error c ↔ LacksText f p (.type i) c := by
  cases hd : p.definition? i with
  | none =>
    rw [entityText_unknownType hd]
    constructor
    · intro h
      obtain rfl := Except.error.inj h
      exact .unknownType hd
    · intro h
      cases h with
      | unknownType _ => rfl
      | delegateType hd' _ => cases hd.symm.trans hd'
      | moduleType hd' _ _ => cases hd.symm.trans hd'
  | some d =>
    obtain ⟨outers, -, heq⟩ := hp.typeHeaderText_eq (f := f) hd
    rw [entityText_type hd, heq, typeHeaderInside_eq_error_iff]
    constructor
    · rintro (⟨hkind, rfl⟩ | ⟨hkind, hf, rfl⟩)
      · exact .delegateType hd hkind
      · exact .moduleType hd hkind hf
    · intro h
      cases h with
      | unknownType hnone => cases hd.symm.trans hnone
      | delegateType hd' hkind =>
        obtain rfl := Option.some.inj (hd.symm.trans hd')
        exact .inl ⟨hkind, rfl⟩
      | moduleType hd' hkind hf =>
        obtain rfl := Option.some.inj (hd.symm.trans hd')
        exact .inr ⟨hkind, hf, rfl⟩

theorem entityText_member_eq_error_iff {i : MemberId} :
    entityText f p (.member i) = .error c ↔ LacksText f p (.member i) c := by
  cases hm : p.member? i with
  | none =>
    rw [entityText_unknownMember hm]
    constructor
    · intro h
      obtain rfl := Except.error.inj h
      exact .unknownMember hm
    · intro h
      cases h with
      | unknownMember _ => rfl
  | some m =>
    obtain ⟨t, ht⟩ := hp.exists_entityText_member f hm
    rw [ht]
    constructor
    · intro h
      cases h
    · intro h
      cases h with
      | unknownMember hnone => cases hm.symm.trans hnone

theorem entityText_eq_error_iff {e : Entity} :
    entityText f p e = .error c ↔ LacksText f p e c := by
  cases e with
  | type i => exact hp.entityText_type_eq_error_iff
  | member i => exact hp.entityText_member_eq_error_iff

end Project.Arena

/-- A declaration text is missing exactly for an entity that is not there, for a delegate, and for a
module whose keyword is wanted. Every member has one, and what is looked for along the links to
enclosing types is found. -/
theorem text_missing_iff (h : p.Reachable) :
    (∀ f e c, entityText f p e = .error c ↔ LacksText f p e c) ∧
      (∀ f {i m}, p.member? i = some m → ∃ t, entityText f p (.member i) = .ok t) ∧
      p.Unwinds := by
  have hp := h.wellFormed.toArena
  exact ⟨fun _ _ _ => hp.entityText_eq_error_iff, fun f _ _ hm => hp.exists_entityText_member f hm,
    hp.unwinds⟩

/-- A module with a method, and with a delegate that has a method of its own. -/
def toolsDocument : TypeDocument where
  kind := .moduleType
  name := "Tools"
  ns := "Acme"
  members := [{ kind := .method, name := "Open" }]
  nestedTypes :=
    [{ kind := .delegateType, name := "Handler", members := [{ kind := .method, name := "Invoke" }] }]

def toolsProject : Project := ((∅ : Project).perform (Project.addType toolsDocument none)).2

/-- The module and the delegate have no header, the method of the delegate has one. -/
theorem text_missing_iff_tools :
    toolsProject.Reachable ∧
      entityText .everything toolsProject (.type ⟨0⟩) = .error (.moduleKeyword "Tools") ∧
      entityText .everything toolsProject (.type ⟨1⟩) = .error (.delegateHeader "Handler") ∧
      (∃ t, entityText .everything toolsProject (.member ⟨⟨1⟩, 0⟩) = .ok t) ∧
      toolsProject.Unwinds := by
  have hr : toolsProject.Reachable := Project.Reachable.empty.add toolsDocument none
  obtain ⟨hmissing, hmember, hunwinds⟩ := text_missing_iff hr
  have hlt : 1 < toolsProject.types.size := by decide
  have htools : toolsProject.definition? ⟨0⟩ = some toolsProject.types[0] := rfl
  have hhandler : toolsProject.definition? ⟨1⟩ = some toolsProject.types[1] := rfl
  obtain ⟨m, hm⟩ : ∃ m, toolsProject.member? ⟨⟨1⟩, 0⟩ = some m :=
    Option.isSome_iff_exists.1 (by decide)
  exact ⟨hr, (hmissing _ _ _).2 (.moduleType htools rfl (by decide)),
    (hmissing _ _ _).2 (.delegateType hhandler rfl), hmember _ hm, hunwinds⟩

end QuickInfo
