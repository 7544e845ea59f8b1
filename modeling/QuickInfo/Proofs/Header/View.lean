import QuickInfo.Proofs.Header.Missing
import QuickInfo.Proofs.Project.Resolution

/-!
# Headers in a view

A view of type definitions that no header shows the difference of. If the types of a project stand
at their places in another project and look the same in such a view, they and their members have the
same declaration texts there.
-/
namespace QuickInfo

/-- The references that a header of the member may show. -/
def MemberDocument.references (m : MemberDocument) : List TypeReference :=
  m.returnType :: m.parameters.map (·.type)

/-- A member header sees of a project only what the references of the member resolve to. -/
theorem memberHeaderInside_congr {f : Facets} {p q : Project} {m : MemberDocument}
    (h : ∀ r ∈ m.references, q.resolve r = p.resolve r) (declaring : TypeHeader)
    (t : DefinitionType) :
    memberHeaderInside f q declaring t m = memberHeaderInside f p declaring t m := by
  obtain ⟨hreturn, hparameters⟩ := List.forall_mem_cons.1 h
  have hdeclare : ∀ a ∈ m.parameters,
      f.switches.declareParameter q a = f.switches.declareParameter p a := by
    intro a ha
    simp only [Switches.declareParameter, hparameters _ (List.mem_map_of_mem ha)]
  have hdeclaration : f.switches.memberDeclaration q (declaring.kind = .interfaceType) m =
      f.switches.memberDeclaration p (declaring.kind = .interfaceType) m := by
    simp only [Switches.memberDeclaration, Switches.typeOf, hreturn, List.map_congr_left hdeclare]
  have hname : memberNameText f q declaring m = memberNameText f p declaring m := by
    simp only [memberNameText, referenceText, hreturn]
  rw [memberHeaderInside, memberHeaderInside, hdeclaration, hname]

namespace Project

/-- The view `g` of definitions, which is `k` on their members, keeps all that the headers show. -/
structure KeepsHeaders (f : Facets) (g : TypeDefinition → TypeDefinition) (k : Member → Member) :
    Prop extends KeepsNames g where
  kind_eq : ∀ d, (g d).kind = d.kind
  typeModifiers_eq : ∀ d, f.shown .modifiers (f.switches.typeModifiers (g d).toTypeHeader).text =
    f.shown .modifiers (f.switches.typeModifiers d.toTypeHeader).text
  typeParameters_eq : ∀ d,
    f.shown .typeParameterList (Spacing.standard.typeParameters (g d).typeParameters) =
      f.shown .typeParameterList (Spacing.standard.typeParameters d.typeParameters)
  members_eq : ∀ d, (g d).members = d.members.map k
  memberHeader_eq : ∀ p d t m,
    memberHeaderInside f p (g d).toTypeHeader t (k m).toMemberDocument =
      memberHeaderInside f p d.toTypeHeader t m.toMemberDocument

namespace KeepsHeaders

variable {f : Facets} {g : TypeDefinition → TypeDefinition} {k : Member → Member}
  (hg : KeepsHeaders f g k)

include hg

theorem typeNameText_eq (outers : List TypeDefinition) (d : TypeDefinition) :
    typeNameText f (outers.map g) (g d) = typeNameText f outers d := by
  cases outers with
  | nil => simp only [List.map_nil, typeNameText, hg.ns_eq, hg.name_eq, hg.typeParameters_eq]
  | cons o outers =>
    rw [List.map_cons]
    simp only [typeNameText]
    rw [← List.map_cons, ← List.map_reverse, List.map_map]
    simp only [Function.comp_def, hg.name_eq, hg.typeParameters_eq]

theorem typeHeaderInside_eq (outers : List TypeDefinition) (d : TypeDefinition) :
    typeHeaderInside f (outers.map g) (g d) = typeHeaderInside f outers d := by
  simp only [typeHeaderInside, Switches.declareType, hg.kind_eq, hg.name_eq]
  cases d.kind.header? with
  | none => simp only [bind, Except.bind]
  | some kind =>
    simp only [bind, Except.bind, keywordText, hg.typeModifiers_eq, hg.typeNameText_eq]

end KeepsHeaders

namespace Within

variable {p q : Project} {f : Facets} {g : TypeDefinition → TypeDefinition} {k : Member → Member}
  (hg : KeepsHeaders f g k) (h : p.Within g q)

include hg h

/-- The member at the same place looks the same. -/
theorem exists_member {i : MemberId} {d : TypeDefinition} {m : Member}
    (hd : p.definition? i.declaringType = some d) (hm : d.members[i.index]? = some m) :
    ∃ e m', q.definition? i.declaringType = some e ∧ g e = g d ∧ q.member? i = some m' ∧
      k m' = k m := by
  obtain ⟨e, he, heq⟩ := h _ d hd
  have hmembers : e.members.map k = d.members.map k := by
    rw [← hg.members_eq e, heq, hg.members_eq d]
  have hk : (e.members.map k)[i.index]? = some (k m) := by
    rw [hmembers, List.getElem?_map, hm, Option.map_some]
  rw [List.getElem?_map, Option.map_eq_some_iff] at hk
  obtain ⟨m', hm', hkm⟩ := hk
  exact ⟨e, m', he, heq, Option.bind_eq_some_iff.2 ⟨e, he, hm'⟩, hkm⟩

variable (hp : p.Arena) (hq : q.Arena)

include hp hq

theorem entityText_type_eq {i : TypeId} (hi : i.index < p.size) :
    entityText f q (.type i) = entityText f p (.type i) := by
  obtain ⟨d, hd⟩ := exists_definition? hi
  obtain ⟨e, he, heq⟩ := h i d hd
  obtain ⟨outers, houters, hpText⟩ := hp.typeHeaderText_eq (f := f) hd
  obtain ⟨outers', houters', hmap⟩ := h.chain_outward hg.toKeepsNames heq houters
  have hqText : typeHeaderText f q e = typeHeaderInside f outers' e :=
    typeHeaderText_eq_inside (hq.enclosing_eq houters')
  rw [entityText_type he, entityText_type hd, hpText, hqText,
    ← hg.typeHeaderInside_eq outers, ← hg.typeHeaderInside_eq outers', heq, hmap]

theorem entityText_member_eq {i : MemberId} {m : Member} (hm : p.member? i = some m)
    (hr : ∀ r ∈ (k m).references, q.resolve r = p.resolve r) :
    entityText f q (.member i) = entityText f p (.member i) := by
  obtain ⟨d, t, hd, hmember, ht, hpText⟩ := hp.memberHeaderText_eq (f := f) hm
  obtain ⟨e, m', he, heq, hm', hk⟩ := h.exists_member hg hd hmember
  obtain ⟨e', t', he', -, ht', hqText⟩ := hq.memberHeaderText_eq (f := f) hm'
  obtain rfl := Option.some.inj (he.symm.trans he')
  have hsame : t' = t := by
    rw [h.definitionType?_eq hg.toKeepsNames hp hq (index_lt_of_definition? hd), ht] at ht'
    exact (Option.some.inj ht').symm
  rw [entityText_member hm, entityText_member hm', hpText, hqText, hsame,
    ← hg.memberHeader_eq p d, ← hg.memberHeader_eq q e, heq, hk, memberHeaderInside_congr hr]

end Within

/-- Projects whose types look the same, each at its place, have the same texts. -/
theorem WellFormed.entityText_eq {p q : Project} {f : Facets} {g : TypeDefinition → TypeDefinition}
    {k : Member → Member} (hp : p.WellFormed) (hq : q.WellFormed) (hg : KeepsHeaders f g k)
    (h : p.Within g q) (h' : q.Within g p) (e : Entity) : entityText f q e = entityText f p e := by
  cases e with
  | type i =>
    by_cases hi : i.index < p.size
    · exact h.entityText_type_eq hg hp.toArena hq.toArena hi
    · have hnone : p.definition? i = none := definition?_eq_none_iff.2 (Nat.le_of_not_lt hi)
      cases hqi : q.definition? i with
      | none => rw [entityText_unknownType hnone, entityText_unknownType hqi]
      | some d =>
        obtain ⟨e, he, -⟩ := h' i d hqi
        exact absurd (index_lt_of_definition? he) hi
  | member i =>
    cases hpm : p.member? i with
    | some m =>
      exact h.entityText_member_eq hg hp.toArena hq.toArena hpm fun r _ =>
        hp.resolve_eq_of_within hq hg.toKeepsNames h h' r
    | none =>
      cases hqm : q.member? i with
      | none => rw [entityText_unknownMember hpm, entityText_unknownMember hqm]
      | some m =>
        obtain ⟨d, hd, hm⟩ := Option.bind_eq_some_iff.1 hqm
        obtain ⟨-, m', -, -, hm', -⟩ := h'.exists_member hg hd hm
        cases hpm.symm.trans hm'

/-- Projects whose lists of types look the same have the same texts. -/
theorem WellFormed.entityText_eq_of_map_eq {p q : Project} {f : Facets}
    {g : TypeDefinition → TypeDefinition} {k : Member → Member} (hp : p.WellFormed)
    (hq : q.WellFormed) (hg : KeepsHeaders f g k)
    (h : p.types.toList.map g = q.types.toList.map g) (e : Entity) :
    entityText f p e = entityText f q e :=
  hq.entityText_eq hp hg (within_of_map_eq h.symm) (within_of_map_eq h) e

end Project

end QuickInfo
