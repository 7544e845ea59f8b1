import QuickInfo.Proofs.Header
import QuickInfo.Proofs.Project.WellFormed
import QuickInfo.Proofs.ShortNames

/-!
# More facets, more text

A facet that is added to a choice of facets only inserts text: what was shown stays, in its order.
-/
namespace QuickInfo

open Text

namespace Modifiers

theorem subtext_text {s t : Modifiers} (h : s ⊆ t) : Subtext s.text t.text :=
  .join_of_sublist (((FlagSet.toList_sublist h).map _).map _)

theorem ite_subset_ite {a b : Bool} (h : a = true → b = true) (s : Modifiers) :
    (if a then s else ∅) ⊆ if b then s else ∅ := by
  cases a with
  | false => exact FlagSet.empty_subset _
  | true =>
    rw [if_pos rfl, if_pos (h rfl)]
    exact s.subset_refl

end Modifiers

section Parts

variable {f g : Facets} (h : f ⊆ g)

include h

theorem subtext_shown (a : Facet) {s t : String} (hs : Subtext s t) :
    Subtext (f.shown a s) (g.shown a t) := by
  by_cases ha : f.has a
  · have hg : g.has a = true := h a ha
    simpa only [Facets.shown, ha, hg, if_true] using hs
  · rw [Facets.shown, if_neg ha]
    exact .empty _

theorem subtext_type (o : Spacing) (t : ResolvedType) :
    Subtext (o.type (.ofType f.naming t)) (o.type (.ofType g.naming t)) := by
  rw [Facets.naming, Facets.naming]
  by_cases hf : f.has .qualifiedTypeNames
  · have hg : g.has .qualifiedTypeNames = true := h _ hf
    rw [if_pos hf, if_pos hg]
  · rw [if_neg hf]
    split
    · exact o.subtext_ofType t
    · exact .refl _

theorem typeModifiers_subset (d : TypeHeader) :
    f.switches.typeModifiers d ⊆ g.switches.typeModifiers d :=
  FlagSet.union_subset_union (Modifiers.ite_subset_ite (h .accessibility) _)
    (Modifiers.ite_subset_ite (h .modifiers) _)

theorem memberModifiers_subset (m : MemberDocument) (inInterface : Bool) :
    f.switches.memberModifiers m inInterface ⊆ g.switches.memberModifiers m inInterface := by
  unfold Switches.memberModifiers
  split
  · exact FlagSet.empty_subset _
  · refine FlagSet.union_subset_union (Modifiers.ite_subset_ite ?_ _)
      (Modifiers.ite_subset_ite (h .modifiers) _)
    simp only [Bool.and_eq_true]
    rintro ⟨⟨ha, hinterface⟩, hstatic⟩
    exact ⟨⟨h .accessibility ha, hinterface⟩, hstatic⟩

theorem subtext_parameter (o : Spacing) (p : Project) (a : Parameter) :
    Subtext (o.parameter (f.switches.declareParameter p a))
      (o.parameter (g.switches.declareParameter p a)) := by
  refine (Subtext.append (.refl _) (subtext_type h o _)).append ?_
  by_cases hf : f.has .parameterNames
  · have hg : g.has .parameterNames = true := h _ hf
    simp only [Switches.declareParameter, Facets.switches, hf, hg, if_true]
    exact .refl _
  · simp only [Switches.declareParameter, Facets.switches, hf]
    exact .empty _

theorem subtext_parameters (o : Spacing) (p : Project) (as : List Parameter) :
    Subtext (o.parameters (as.map (f.switches.declareParameter p)))
      (o.parameters (as.map (g.switches.declareParameter p))) := by
  simp only [Spacing.parameters, commaSeparated, List.map_map]
  exact .intercalate_map _ fun a _ => subtext_parameter h o p a

theorem subtext_variableDeclaration (o : Spacing) (p : Project) (v : Variable) :
    Subtext (o.variableDeclaration (f.switches.declareVariable p v))
      (o.variableDeclaration (g.switches.declareVariable p v)) := by
  unfold Switches.declareVariable
  cases v.modifier with
  | some modifier => exact subtext_parameter h o p _
  | none =>
    have hmodifiers : (f.switches.modifiers && v.isConst) = true →
        (g.switches.modifiers && v.isConst) = true := by
      simp only [Bool.and_eq_true]
      rintro ⟨hm, hconst⟩
      exact ⟨h .modifiers hm, hconst⟩
    have hhead : Subtext _ _ := (Modifiers.subtext_text
      (Modifiers.ite_subset_ite hmodifiers (.ofList [.entity .const]))).append
        (subtext_type h o (p.resolve v.type))
    exact ((((hhead.append (.refl " ")).append (.refl v.name)).append (.refl _)).append
      (.refl ";")).append (.refl o.newline)

/-- Only a keyword that is shown can be missing. -/
theorem subtext_keywordText {d e : TypeDeclaration} (hkind : d.kind = e.kind) {t : String}
    (ht : keywordText g e = .ok t) : ∃ s, keywordText f d = .ok s ∧ Subtext s t := by
  rw [keywordText]
  by_cases hf : f.has .definitionKeyword
  · have hg : g.has .definitionKeyword = true := h _ hf
    rw [keywordText, if_pos hg, ← hkind] at ht
    rw [if_pos hf]
    cases hk : d.kind.keyword? with
    | none => simp [hk] at ht
    | some keyword =>
      simp only [hk] at ht
      exact ⟨t, ht, .refl t⟩
  · rw [if_neg hf]
    exact ⟨"", rfl, .empty t⟩

theorem subtext_typeNameText (outers : List TypeDefinition) (d : TypeDefinition) :
    Subtext (typeNameText f outers d) (typeNameText g outers d) := by
  have hname : ∀ d : TypeDefinition, Subtext
      (d.name ++ f.shown .typeParameterList (Spacing.standard.typeParameters d.typeParameters))
      (d.name ++ g.shown .typeParameterList (Spacing.standard.typeParameters d.typeParameters)) :=
    fun d => (Subtext.refl _).append (subtext_shown h _ (.refl _))
  cases outers with
  | nil => exact (subtext_shown h _ (.refl _)).append (hname d)
  | cons o outers =>
    exact (Subtext.join_map fun o _ => (hname o).append (.refl ".")).append (hname d)

/-- A type header that is there with more facets is there with fewer. -/
theorem subtext_typeHeaderText (p : Project) {d : TypeDefinition} {t : String}
    (ht : typeHeaderText g p d = .ok t) :
    ∃ s, typeHeaderText f p d = .ok s ∧ Subtext s t := by
  obtain ⟨_, keyword, outers, hd, hkeyword, houters, rfl⟩ := typeHeaderText_eq_ok_iff.1 ht
  obtain ⟨kind, hkind, rfl⟩ := declareType_eq_ok_iff.1 hd
  have hd' := declareType_eq_ok_iff (s := f.switches).2 ⟨kind, hkind, rfl⟩
  obtain ⟨keyword', hkeyword', hsub⟩ := subtext_keywordText h rfl hkeyword
  have hmodifiers := subtext_shown h .modifiers
    (Modifiers.subtext_text (typeModifiers_subset h d.toTypeHeader))
  exact ⟨_, typeHeaderText_eq_ok_iff.2 ⟨_, keyword', outers, hd', hkeyword', houters, rfl⟩,
    ((hmodifiers.append hsub).append (subtext_typeNameText h outers d)).trimEnd⟩

/-- Only a declaring type that is shown can be missing. -/
theorem subtext_qualificationText (p : Project) {d : TypeDefinition} {name t : String}
    (ht : qualificationText g p d name = .ok t) :
    ∃ s, qualificationText f p d name = .ok s ∧ Subtext s t := by
  rw [qualificationText]
  by_cases hf : f.has .qualifiedMemberNames
  · have hg : g.has .qualifiedMemberNames = true := h _ hf
    rw [qualificationText, if_pos hg] at ht
    rw [if_pos hf]
    cases hdef : p.definitionType? d.id with
    | none => simp [hdef] at ht
    | some u =>
      simp only [hdef] at ht
      obtain rfl := Except.ok.inj ht
      exact ⟨_, rfl, (subtext_type h _ _).append (.refl ".")⟩
  · rw [if_neg hf]
    exact ⟨"", rfl, .empty t⟩

theorem subtext_memberNameText (p : Project) (declaring : TypeHeader) (m : MemberDocument) :
    Subtext (memberNameText f p declaring m) (memberNameText g p declaring m) := by
  unfold memberNameText
  split
  case h_4 =>
    -- only a conversion has a type in its name
    split
    · exact .refl _
    · split
      · exact (Subtext.refl _).append (subtext_type h _ _)
      · exact .refl _
  all_goals exact .refl _

theorem subtext_returnTypeText (p : Project) (inInterface : Bool) (m : MemberDocument) :
    Subtext (f.switches.memberDeclaration p inInterface m).returnTypeText
      (g.switches.memberDeclaration p inInterface m).returnTypeText := by
  simp only [MemberDeclaration.returnTypeText, Switches.memberDeclaration]
  cases m.hasReturnType with
  | false => exact .refl _
  | true => exact (subtext_type h _ _).append (.refl " ")

theorem subtext_parameterListText (p : Project) (inInterface : Bool) (m : MemberDocument) :
    Subtext (f.switches.memberDeclaration p inInterface m).parameterListText
      (g.switches.memberDeclaration p inInterface m).parameterListText := by
  by_cases hk : m.kind.isParameterized
  · simp only [MemberDeclaration.parameterListText, Switches.memberDeclaration, hk, if_true]
    exact ((Subtext.refl _).append (subtext_parameters h _ p m.parameters)).append (.refl _)
  · simp only [MemberDeclaration.parameterListText, Switches.memberDeclaration, hk]
    exact .refl _

theorem subtext_memberHeaderText (p : Project) {m : Member} {t : String}
    (ht : memberHeaderText g p m = .ok t) :
    ∃ s, memberHeaderText f p m = .ok s ∧ Subtext s t := by
  obtain ⟨declaring, _, qualification, hdeclaring, rfl, hq, rfl⟩ :=
    memberHeaderText_eq_ok_iff.1 ht
  obtain ⟨qualification', hq', hsub⟩ := subtext_qualificationText h p hq
  have hmodifiers := subtext_shown h .modifiers (Modifiers.subtext_text
    (memberModifiers_subset h m.toMemberDocument (declaring.kind = .interfaceType)))
  have hreturn := subtext_shown h .returnType
    (subtext_returnTypeText h p (declaring.kind = .interfaceType) m.toMemberDocument)
  have hname := subtext_memberNameText h p declaring.toTypeHeader m.toMemberDocument
  have htypes := subtext_shown h .typeParameterList
    (.refl (Spacing.standard.typeParameters (if m.kind = .method then m.typeParameters else [])))
  have hparameters := subtext_shown h .parameterList
    (subtext_parameterListText h p (declaring.kind = .interfaceType) m.toMemberDocument)
  have htext := ((((hmodifiers.append hreturn).append hsub).append hname).append htypes).append
    hparameters
  exact ⟨_, memberHeaderText_eq_ok_iff.2 ⟨declaring, _, qualification', hdeclaring, rfl, hq', rfl⟩,
    htext.trimEnd⟩

/-- If an entity has a text with more facets, it has one with fewer, and that is a subtext; so are the
texts of variables, types and references. -/
theorem facets_insert_text (p : Project) :
    (∀ {e t}, entityText g p e = .ok t → ∃ s, entityText f p e = .ok s ∧ Subtext s t) ∧
      (∀ v, Subtext (variableText f p v) (variableText g p v)) ∧
      (∀ t, Subtext (typeText f t) (typeText g t)) ∧
      ∀ r, Subtext (referenceText f p r) (referenceText g p r) := by
  refine ⟨?_, ?_, ?_, ?_⟩
  · intro e t ht
    unfold entityText at ht ⊢
    cases e with
    | type id =>
      cases hd : p.definition? id with
      | none => simp [hd] at ht
      | some d =>
        simp only [hd] at ht ⊢
        exact subtext_typeHeaderText h p ht
    | member id =>
      cases hm : p.member? id with
      | none => simp [hm] at ht
      | some m =>
        simp only [hm] at ht ⊢
        exact subtext_memberHeaderText h p ht
  · intro v
    exact (subtext_variableDeclaration h _ p v).trimEndOf _
  · intro t
    exact subtext_type h _ t
  · intro r
    exact subtext_type h _ (p.resolve r)

end Parts

/-- Member names are qualified by text that is put in before them. -/
theorem facets_insert_text_outer :
    Facets.standard ⊆ Facets.everything ∧
      entityText .everything (Project.outerProject ["T"]) (.member ⟨⟨0⟩, 0⟩) =
        .ok "void Acme.Outer<T>.Run()" ∧
      entityText .standard (Project.outerProject ["T"]) (.member ⟨⟨0⟩, 0⟩) = .ok "void Run()" ∧
      Subtext "void Run()" "void Acme.Outer<T>.Run()" := by
  have h : Facets.standard ⊆ Facets.everything := by decide
  have hall : entityText .everything (Project.outerProject ["T"]) (.member ⟨⟨0⟩, 0⟩) =
      .ok "void Acme.Outer<T>.Run()" := by decide +kernel
  have hstandard : entityText .standard (Project.outerProject ["T"]) (.member ⟨⟨0⟩, 0⟩) =
      .ok "void Run()" := by decide +kernel
  obtain ⟨s, hs, hsub⟩ := (facets_insert_text h _).1 hall
  obtain rfl := Except.ok.inj (hs.symm.trans hstandard)
  exact ⟨h, hall, hstandard, hsub⟩

end QuickInfo
