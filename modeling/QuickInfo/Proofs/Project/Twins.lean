import QuickInfo.Proofs.Header.View

/-!
# Twins

Two types of different projects are twins if they and the types outward from them say the same, at
whatever identifiers. Twins have the same name, declare the same type and have the same texts.
-/
namespace QuickInfo

/-- What a definition says without identifiers. -/
def TypeDefinition.content (d : TypeDefinition) : TypeHeader × String × List MemberDocument :=
  (d.toTypeHeader, d.ns, d.members.map fun m => m.toMemberDocument)

section Content

variable {d e : TypeDefinition} (h : e.content = d.content)

include h

theorem toTypeHeader_eq_of_content : e.toTypeHeader = d.toTypeHeader := congrArg (·.1) h

theorem ns_eq_of_content : e.ns = d.ns := congrArg (·.2.1) h

theorem members_eq_of_content :
    e.members.map (fun m => m.toMemberDocument) = d.members.map fun m => m.toMemberDocument :=
  congrArg (·.2.2) h

theorem nestIn_eq_of_content {ds es : List TypeDefinition}
    (hs : es.map (·.content) = ds.map (·.content)) : Project.nestIn e es = Project.nestIn d ds := by
  have hheader := toTypeHeader_eq_of_content h
  induction ds generalizing d e es with
  | nil =>
    obtain rfl := List.map_eq_nil_iff.1 hs
    rw [Project.nestIn, Project.nestIn, hheader, ns_eq_of_content h]
  | cons o ds ih =>
    obtain ⟨o', es, rfl, ho, hs⟩ := List.map_eq_cons_iff.1 hs
    rw [Project.nestIn, Project.nestIn, hheader, ih ho hs (toTypeHeader_eq_of_content ho)]

theorem typeNameText_eq_of_content {ds es : List TypeDefinition}
    (hs : es.map (·.content) = ds.map (·.content)) (f : Facets) :
    typeNameText f es e = typeNameText f ds d := by
  have hheader := toTypeHeader_eq_of_content h
  let part (c : TypeHeader × String × List MemberDocument) : String :=
    c.1.name ++ f.shown .typeParameterList (Spacing.standard.typeParameters c.1.typeParameters) ++ "."
  have hpart : ∀ l : List TypeDefinition,
      l.reverse.map (fun o => o.name ++ f.shown .typeParameterList
        (Spacing.standard.typeParameters o.typeParameters) ++ ".") =
        (l.map (·.content)).reverse.map part := by
    intro l
    rw [← List.map_reverse, List.map_map]
    rfl
  cases ds with
  | nil =>
    obtain rfl := List.map_eq_nil_iff.1 hs
    simp only [typeNameText, hheader, ns_eq_of_content h]
  | cons o ds =>
    obtain ⟨o', es, rfl, -, -⟩ := List.map_eq_cons_iff.1 hs
    simp only [typeNameText]
    rw [hpart, hpart, hs, hheader]

theorem typeHeaderInside_eq_of_content {ds es : List TypeDefinition}
    (hs : es.map (·.content) = ds.map (·.content)) (f : Facets) :
    typeHeaderInside f es e = typeHeaderInside f ds d := by
  simp only [typeHeaderInside, Switches.declareType, toTypeHeader_eq_of_content h,
    typeNameText_eq_of_content h hs]

end Content

namespace Project

/-- The types outward from two links say the same. -/
def Twins (p q : Project) (link link' : Option TypeId) : Prop :=
  ∃ ds es, p.Chain link ds ∧ q.Chain link' es ∧ es.map (·.content) = ds.map (·.content)

variable {p q : Project} {i j : TypeId} {d e : TypeDefinition}

theorem twins_none (p q : Project) : p.Twins q none none := ⟨[], [], .nil, .nil, rfl⟩

/-- Types that say the same inside twins are twins. -/
theorem twins_some (hd : p.definition? i = some d) (he : q.definition? j = some e)
    (hcontent : e.content = d.content) (h : p.Twins q d.declaringType e.declaringType) :
    p.Twins q (some i) (some j) := by
  obtain ⟨ds, es, hds, hes, heq⟩ := h
  refine ⟨d :: ds, e :: es, .cons hd hds, .cons he hes, ?_⟩
  rw [List.map_cons, List.map_cons, hcontent, heq]

theorem Twins.cases (h : p.Twins q (some i) (some j)) :
    ∃ d e ds es, p.definition? i = some d ∧ q.definition? j = some e ∧
      p.Chain d.declaringType ds ∧ q.Chain e.declaringType es ∧ e.content = d.content ∧
      es.map (·.content) = ds.map (·.content) := by
  obtain ⟨_, _, hds, hes, heq⟩ := h
  cases hds with
  | cons hd hds =>
    cases hes with
    | cons he hes =>
      obtain ⟨hcontent, heq⟩ := List.cons.inj heq
      exact ⟨_, _, _, _, hd, he, hds, hes, hcontent, heq⟩

namespace Twins

variable (h : p.Twins q (some i) (some j)) (hp : p.Arena) (hq : q.Arena)

include h

/-- The members of twins say the same. -/
theorem memberDocument_eq (k : Nat) :
    (q.member? ⟨j, k⟩).map (fun m => m.toMemberDocument) =
      (p.member? ⟨i, k⟩).map fun m => m.toMemberDocument := by
  obtain ⟨d, e, -, -, hd, he, -, -, hcontent, -⟩ := h.cases
  have hmembers := congrArg (·[k]?) (members_eq_of_content hcontent)
  simpa [member?, hd, he] using hmembers

include hp hq

theorem key_eq (hd : p.definition? i = some d) (he : q.definition? j = some e) :
    q.key e = p.key d := by
  obtain ⟨d', e', ds, es, hd', he', hds, hes, hcontent, heq⟩ := h.cases
  obtain rfl := Option.some.inj (hd.symm.trans hd')
  obtain rfl := Option.some.inj (he.symm.trans he')
  have hnames : ∀ l : List TypeDefinition,
      (l.map (·.content)).map (fun c => c.1.name) = l.map fun o => o.name := by
    intro l
    rw [List.map_map]
    rfl
  rw [key, key, reflectionName, reflectionName, hp.qualifiedName_eq hds, hq.qualifiedName_eq hes,
    List.map_reverse, List.map_reverse, ← hnames, ← hnames, heq, toTypeHeader_eq_of_content hcontent,
    ns_eq_of_content hcontent]

theorem definitionType?_eq : q.definitionType? j = p.definitionType? i := by
  obtain ⟨d, e, ds, es, hd, he, hds, hes, hcontent, heq⟩ := h.cases
  rw [hp.definitionType?_eq hd hds, hq.definitionType?_eq he hes, nestIn_eq_of_content hcontent heq]

theorem entityText_type_eq (f : Facets) :
    entityText f q (.type j) = entityText f p (.type i) := by
  obtain ⟨d, e, ds, es, hd, he, hds, hes, hcontent, heq⟩ := h.cases
  rw [entityText_type hd, entityText_type he, typeHeaderText_eq_inside (hp.enclosing_eq hds),
    typeHeaderText_eq_inside (hq.enclosing_eq hes), typeHeaderInside_eq_of_content hcontent heq]

/-- The members of twins have the same texts if references resolve alike. -/
theorem entityText_member_eq (hr : ∀ r, q.resolve r = p.resolve r) (f : Facets) {k : Nat}
    {m m' : Member} (hm : p.member? ⟨i, k⟩ = some m) (hm' : q.member? ⟨j, k⟩ = some m') :
    entityText f q (.member ⟨j, k⟩) = entityText f p (.member ⟨i, k⟩) := by
  obtain ⟨d, t, hd, -, ht, hpText⟩ := hp.memberHeaderText_eq (f := f) hm
  obtain ⟨e, t', he, -, ht', hqText⟩ := hq.memberHeaderText_eq (f := f) hm'
  obtain ⟨d', e', -, -, hd', he', -, -, hcontent, -⟩ := h.cases
  obtain rfl := Option.some.inj (hd.symm.trans hd')
  obtain rfl := Option.some.inj (he.symm.trans he')
  have htype : t' = t := by
    rw [h.definitionType?_eq hp hq, ht] at ht'
    exact (Option.some.inj ht').symm
  have hdocument : m'.toMemberDocument = m.toMemberDocument := by
    have hk := h.memberDocument_eq k
    rw [hm, hm'] at hk
    exact Option.some.inj hk
  rw [entityText_member hm, entityText_member hm', hpText, hqText, htype, hdocument,
    toTypeHeader_eq_of_content hcontent, memberHeaderInside_congr fun r _ => hr r]

end Twins

end Project

end QuickInfo
