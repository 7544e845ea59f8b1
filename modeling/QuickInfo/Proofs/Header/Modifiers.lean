import QuickInfo.Proofs.Header.Qualification
import QuickInfo.Proofs.Header.View

/-!
# Modifiers

The words before a type or member are those that it carries, less the ones that say nothing there or
contradict another one. They come in one order and each of them once, so a header sees of a list of
modifiers only which ones are in it.
-/
namespace QuickInfo

open Text

/-! ### Words -/

/-- The words that a type or member brings along: those of its accessibility, if that is shown, and
its modifiers. -/
def Facets.Carries (f : Facets) (a : Accessibility) (modifiers : List EntityModifier) :
    Modifier → Prop
  | .access w => .accessibility ∈ f ∧ .access w ∈ Modifiers.ofAccessibility a
  | .entity e => e ∈ modifiers

/-- The words that are not written before a member although it carries them. -/
inductive MemberDocument.Suppresses (declaring : TypeHeader) (m : MemberDocument) : Modifier → Prop
  | destructor {w : Modifier} : m.kind = .destructor → Suppresses declaring m w
  | static {e : EntityModifier} : .static ∈ m.modifiers →
    e ∈ [.abstract, .virtual, .override, .sealed] → Suppresses declaring m (.entity e)
  | constant : .const ∈ m.modifiers → Suppresses declaring m (.entity .static)
  | overridable : .abstract ∈ m.modifiers ∨ .override ∈ m.modifiers →
    Suppresses declaring m (.entity .virtual)
  | interfaceAccess {w : AccessWord} : declaring.kind = .interfaceType →
    Suppresses declaring m (.access w)
  | interfaceAbstract : declaring.kind = .interfaceType → Suppresses declaring m (.entity .abstract)
  | staticConstructor {w : AccessWord} : m.kind = .constructor → .static ∈ m.modifiers →
    Suppresses declaring m (.access w)

/-- A type is written as static if it is, and a class also if it is both abstract and sealed. -/
def TypeHeader.IsStatic (h : TypeHeader) : Prop :=
  .static ∈ h.modifiers ∨ (h.kind = .classType ∧ .abstract ∈ h.modifiers ∧ .sealed ∈ h.modifiers)

/-- The words that are not written before a type although it carries them and they belong to
types. -/
inductive TypeHeader.Suppresses (h : TypeHeader) : Modifier → Prop
  | notClass {e : EntityModifier} : h.kind ≠ .classType → e ∈ [.abstract, .sealed] →
    Suppresses h (.entity e)
  | static {e : EntityModifier} : h.IsStatic → e ∈ [.abstract, .sealed] → Suppresses h (.entity e)

/-- The modifiers that belong to types. -/
def EntityModifier.ofTypes : List EntityModifier :=
  [.static, .abstract, .sealed, .new, .unsafeContext, .partialDefinition]

/-- The words that are written before a member. -/
def MemberDocument.Shows (f : Facets) (declaring : TypeHeader) (m : MemberDocument)
    (w : Modifier) : Prop :=
  f.Carries m.accessibility m.modifiers w ∧ ¬m.Suppresses declaring w

/-- The words that are written before a type. -/
def TypeHeader.Shows (f : Facets) (h : TypeHeader) (w : Modifier) : Prop :=
  (f.Carries h.accessibility h.modifiers w ∧ ¬h.Suppresses w ∧
      ∀ e, w = .entity e → e ∈ EntityModifier.ofTypes) ∨
    (w = .entity .static ∧ h.IsStatic)

/-- The list has the given words, each once and in the order of all words. -/
structure Modifier.Lists (shown : Modifier → Prop) (words : List Modifier) : Prop where
  nodup : words.Nodup
  ordered : words.Sublist Modifier.all
  mem_iff : ∀ w, w ∈ words ↔ shown w

/-- The words, each with a space after it. -/
def Modifier.wordsText (words : List Modifier) : String :=
  String.join (words.map fun w => w.keyword ++ " ")

namespace Modifiers

variable {s t : Modifiers} {w : Modifier}

theorem text_eq (s : Modifiers) : s.text = Modifier.wordsText s.toList := by
  rw [text, keywords, List.map_map]
  rfl

theorem lists_toList {shown : Modifier → Prop} (h : ∀ w, w ∈ s ↔ shown w) :
    Modifier.Lists shown s.toList where
  nodup := List.filter_sublist.nodup (by decide : Modifier.all.Nodup)
  ordered := List.filter_sublist
  mem_iff w := FlagSet.mem_toList.trans (h w)

theorem mem_ite_empty_iff {c : Prop} [Decidable c] : w ∈ (if c then s else ∅) ↔ c ∧ w ∈ s := by
  by_cases hc : c
  · rw [if_pos hc, and_iff_right hc]
  · rw [if_neg hc]
    exact iff_of_false (fun h => nomatch h) fun h => hc h.1

theorem entity_notMem_ofAccessibility (e : EntityModifier) (a : Accessibility) :
    .entity e ∉ ofAccessibility a := by
  cases a <;> simp [ofAccessibility, FlagSet.mem_def]

end Modifiers

open Modifiers

section Words

variable {f : Facets} {w : AccessWord} {e : EntityModifier}

theorem MemberDocument.suppresses_access_iff {declaring : TypeHeader} {m : MemberDocument} :
    m.Suppresses declaring (.access w) ↔ m.kind = .destructor ∨ declaring.kind = .interfaceType ∨
      (m.kind = .constructor ∧ .static ∈ m.modifiers) := by
  constructor
  · intro h
    cases h with
    | destructor hkind => exact .inl hkind
    | interfaceAccess hkind => exact .inr (.inl hkind)
    | staticConstructor hkind hstatic => exact .inr (.inr ⟨hkind, hstatic⟩)
  · rintro (hkind | hkind | ⟨hkind, hstatic⟩)
    · exact .destructor hkind
    · exact .interfaceAccess hkind
    · exact .staticConstructor hkind hstatic

theorem MemberDocument.suppresses_entity_iff {declaring : TypeHeader} {m : MemberDocument} :
    m.Suppresses declaring (.entity e) ↔ m.kind = .destructor ∨
      (.static ∈ m.modifiers ∧ e ∈ [.abstract, .virtual, .override, .sealed]) ∨
      (.const ∈ m.modifiers ∧ e = .static) ∨
      ((.abstract ∈ m.modifiers ∨ .override ∈ m.modifiers) ∧ e = .virtual) ∨
      (declaring.kind = .interfaceType ∧ e = .abstract) := by
  constructor
  · intro h
    cases h with
    | destructor hkind => exact .inl hkind
    | static hstatic he => exact .inr (.inl ⟨hstatic, he⟩)
    | constant hconst => exact .inr (.inr (.inl ⟨hconst, rfl⟩))
    | overridable hover => exact .inr (.inr (.inr (.inl ⟨hover, rfl⟩)))
    | interfaceAbstract hkind => exact .inr (.inr (.inr (.inr ⟨hkind, rfl⟩)))
  · rintro (hkind | ⟨hstatic, he⟩ | ⟨hconst, rfl⟩ | ⟨hover, rfl⟩ | ⟨hkind, rfl⟩)
    · exact .destructor hkind
    · exact .static hstatic he
    · exact .constant hconst
    · exact .overridable hover
    · exact .interfaceAbstract hkind

theorem MemberDocument.entity_mem_ownModifiers_iff {declaring : TypeHeader} {m : MemberDocument}
    (hkind : m.kind ≠ .destructor) :
    .entity e ∈ m.ownModifiers (declaring.kind = .interfaceType) ↔
      e ∈ m.modifiers ∧ ¬m.Suppresses declaring (.entity e) := by
  rw [suppresses_entity_iff]
  -- every word has a test of its own, and what is left of the rules is that test
  cases e <;> simp [ownModifiers, FlagSet.mem_def, hkind] <;> tauto

theorem memberModifiers_of_ne_destructor {m : MemberDocument} (hf : .modifiers ∈ f)
    (hkind : m.kind ≠ .destructor) (inInterface : Bool) :
    f.switches.memberModifiers m inInterface =
      (if f.has .accessibility && !inInterface &&
          !(m.kind = .constructor && m.modifiers.contains .static) then
        ofAccessibility m.accessibility else ∅) ∪ m.ownModifiers inInterface := by
  have hmodifiers : f.switches.modifiers = true := hf
  rw [Switches.memberModifiers, if_neg hkind, hmodifiers, if_pos rfl]
  rfl

/-- Before a member stand the words that it carries and that no rule suppresses. -/
theorem mem_memberModifiers_iff (hf : .modifiers ∈ f) (declaring : TypeHeader) (m : MemberDocument)
    (w : Modifier) :
    w ∈ f.switches.memberModifiers m (declaring.kind = .interfaceType) ↔ m.Shows f declaring w := by
  by_cases hkind : m.kind = .destructor
  · have hnone : f.switches.memberModifiers m (declaring.kind = .interfaceType) = ∅ := if_pos hkind
    rw [hnone]
    exact iff_of_false (fun h => nomatch h) fun h => h.2 (.destructor hkind)
  · rw [memberModifiers_of_ne_destructor hf hkind, FlagSet.mem_union_iff, mem_ite_empty_iff]
    -- words of accessibility and other words come from different parts of the union
    cases w with
    | access w =>
      have hown : .access w ∉ m.ownModifiers (declaring.kind = .interfaceType) := fun h => nomatch h
      have htold : (f.has .accessibility && !decide (declaring.kind = .interfaceType) &&
          !(m.kind = .constructor && m.modifiers.contains .static)) = true ↔
            .accessibility ∈ f ∧ ¬m.Suppresses declaring (.access w) := by
        rw [MemberDocument.suppresses_access_iff, or_iff_right hkind, not_or]
        simp [FlagSet.mem_def, and_assoc, imp_iff_not_or]
      rw [or_iff_left hown, htold]
      exact and_right_comm
    | entity e =>
      rw [or_iff_right fun h => entity_notMem_ofAccessibility e _ h.2,
        MemberDocument.entity_mem_ownModifiers_iff hkind]
      rfl

theorem TypeHeader.suppresses_entity_iff {h : TypeHeader} :
    h.Suppresses (.entity e) ↔ (h.kind ≠ .classType ∨ h.IsStatic) ∧ e ∈ [.abstract, .sealed] := by
  constructor
  · intro hs
    cases hs with
    | notClass hkind he => exact ⟨.inl hkind, he⟩
    | static hstatic he => exact ⟨.inr hstatic, he⟩
  · rintro ⟨hkind | hstatic, he⟩
    · exact .notClass hkind he
    · exact .static hstatic he

theorem TypeHeader.entity_mem_ownModifiers_iff {h : TypeHeader} :
    .entity e ∈ h.ownModifiers ↔
      (e ∈ h.modifiers ∧ ¬h.Suppresses (.entity e) ∧ e ∈ EntityModifier.ofTypes) ∨
        (e = .static ∧ h.IsStatic) := by
  rw [suppresses_entity_iff]
  cases e <;> simp [ownModifiers, IsStatic, EntityModifier.ofTypes, FlagSet.mem_def] <;> tauto

/-- Before a type stand the words that it carries, if they belong to types and no rule suppresses
them. A class that is abstract and sealed is static besides. -/
theorem mem_typeModifiers_iff (hf : .modifiers ∈ f) (h : TypeHeader) (w : Modifier) :
    w ∈ f.switches.typeModifiers h ↔ h.Shows f w := by
  have hmodifiers : f.switches.modifiers = true := hf
  rw [Switches.typeModifiers, hmodifiers, if_pos rfl, FlagSet.mem_union_iff, mem_ite_empty_iff]
  cases w with
  | access w =>
    have hown : .access w ∉ h.ownModifiers := fun hw => nomatch hw
    have hsuppresses : ¬h.Suppresses (.access w) := fun hs => nomatch hs
    simp only [TypeHeader.Shows, Facets.Carries, or_iff_left hown, hsuppresses, not_false_eq_true,
      reduceCtorEq, false_implies, implies_true, and_true, false_and, or_false]
    rfl
  | entity e =>
    rw [or_iff_right fun hw => entity_notMem_ofAccessibility e _ hw.2,
      TypeHeader.entity_mem_ownModifiers_iff]
    simp [TypeHeader.Shows, Facets.Carries]

end Words

/-! ### Headers -/

variable {f : Facets} {p : Project}

/-- The header of a type behind its modifiers, before it is trimmed. -/
def typeRestText (f : Facets) (outers : List TypeDefinition) (d : TypeDefinition) :
    Except DeclarationError String := do
  let declaration ← f.switches.declareType d
  let keyword ← keywordText f declaration
  return keyword ++ typeNameText f outers d

/-- The header of a member behind its modifiers, before it is trimmed. -/
def memberRestText (f : Facets) (p : Project) (declaring : TypeHeader) (t : DefinitionType)
    (m : MemberDocument) : String :=
  let declaration := f.switches.memberDeclaration p (declaring.kind = .interfaceType) m
  f.shown .returnType declaration.returnTypeText ++
    (f.shown .qualifiedMemberNames (typeText f (.definition t) ++ ".") ++
      memberSignatureText f p declaring m)

theorem typeHeaderInside_eq_rest (f : Facets) (outers : List TypeDefinition) (d : TypeDefinition) :
    typeHeaderInside f outers d =
      (fun t => trimEnd (f.shown .modifiers (f.switches.typeModifiers d.toTypeHeader).text ++ t)) <$>
        typeRestText f outers d := by
  unfold typeHeaderInside typeRestText Switches.declareType
  cases d.kind.header? with
  | none => rfl
  | some kind =>
    simp only [bind, Except.bind, String.append_assoc]
    cases keywordText f _ <;> rfl

theorem memberHeaderInside_eq_rest (f : Facets) (p : Project) (declaring : TypeHeader)
    (t : DefinitionType) (m : MemberDocument) :
    memberHeaderInside f p declaring t m =
      trimEnd (f.shown .modifiers
          (f.switches.memberModifiers m (declaring.kind = .interfaceType)).text ++
        memberRestText f p declaring t m) := by
  simp only [memberHeaderInside, memberRestText, memberSignatureText, String.append_assoc]
  rfl

/-- What stands behind the modifiers does not depend on them. -/
theorem typeRestText_without (outers : List TypeDefinition) (d : TypeDefinition) :
    typeRestText (f.without .modifiers) outers d = typeRestText f outers d := by
  have hkeyword : Facet.definitionKeyword ≠ .modifiers := by decide
  have hlist : Facet.typeParameterList ≠ .modifiers := by decide
  have hnames : Facet.qualifiedMemberNames ≠ .modifiers := by decide
  have hname : typeNameText (f.without .modifiers) outers d = typeNameText f outers d := by
    simp only [typeNameText, Facets.shown_without hlist, Facets.shown_without hnames]
  unfold typeRestText Switches.declareType
  cases d.kind.header? with
  | none => rfl
  | some kind =>
    simp only [bind, Except.bind, keywordText, Facets.has_without hkeyword, hname]

theorem memberRestText_without (declaring : TypeHeader) (t : DefinitionType) (m : MemberDocument) :
    memberRestText (f.without .modifiers) p declaring t m = memberRestText f p declaring t m := by
  have hreturn : Facet.returnType ≠ .modifiers := by decide
  have htypes : Facet.qualifiedTypeNames ≠ .modifiers := by decide
  have hnames : Facet.qualifiedMemberNames ≠ .modifiers := by decide
  have hreturnType : ∀ inInterface,
      ((f.without .modifiers).switches.memberDeclaration p inInterface m).returnTypeText =
        (f.switches.memberDeclaration p inInterface m).returnTypeText := by
    intro inInterface
    simp only [MemberDeclaration.returnTypeText, Switches.memberDeclaration, Switches.typeOf,
      Facets.switches, Facets.naming_without htypes]
  have hsignature : memberSignatureText (f.without .modifiers) p declaring m =
      memberSignatureText f p declaring m := memberSignatureText_without (by decide) declaring m
  simp only [memberRestText, hsignature, typeText_without htypes, hreturnType,
    Facets.shown_without hreturn, Facets.shown_without hnames]

/-! ### Order and repetition -/

/-- The modifiers of the list, each of them once and in their own order. -/
def EntityModifier.tidy (l : List EntityModifier) : List EntityModifier :=
  Enumeration.all.filter l.contains

theorem EntityModifier.contains_tidy (l : List EntityModifier) (e : EntityModifier) :
    (tidy l).contains e = l.contains e := by
  rw [Bool.eq_iff_iff, List.contains_iff_mem, tidy, List.mem_filter,
    and_iff_right (Enumeration.mem_all e)]

/-- Tidy lists are the same exactly if the same modifiers are in the lists. -/
theorem EntityModifier.tidy_eq_iff {l l' : List EntityModifier} :
    tidy l = tidy l' ↔ ∀ e, e ∈ l ↔ e ∈ l' := by
  constructor
  · intro h e
    rw [← List.contains_iff_mem, ← contains_tidy, h, contains_tidy, List.contains_iff_mem]
  · intro h
    refine List.filter_congr fun e _ => ?_
    rw [Bool.eq_iff_iff, List.contains_iff_mem, List.contains_iff_mem, h]

def Member.tidy (m : Member) : Member :=
  { m with modifiers := EntityModifier.tidy m.modifiers }

/-- The definition with tidy lists of modifiers, and its members as well. -/
def TypeDefinition.tidy (d : TypeDefinition) : TypeDefinition :=
  { d with
    modifiers := EntityModifier.tidy d.modifiers
    members := d.members.map Member.tidy }

theorem typeModifiers_tidy (s : Switches) (d : TypeDefinition) :
    s.typeModifiers d.tidy.toTypeHeader = s.typeModifiers d.toTypeHeader := by
  simp only [Switches.typeModifiers, TypeHeader.ownModifiers, TypeDefinition.tidy,
    EntityModifier.contains_tidy]
  rfl

theorem memberModifiers_tidy (s : Switches) (m : Member) (inInterface : Bool) :
    s.memberModifiers m.tidy.toMemberDocument inInterface =
      s.memberModifiers m.toMemberDocument inInterface := by
  simp only [Switches.memberModifiers, MemberDocument.ownModifiers, Member.tidy,
    EntityModifier.contains_tidy]
  rfl

/-- A header sees of a list of modifiers only which ones are in it. -/
theorem keepsHeaders_tidy (f : Facets) :
    Project.KeepsHeaders f TypeDefinition.tidy Member.tidy where
  declaringType_eq _ := rfl
  ns_eq _ := rfl
  name_eq _ := rfl
  ownArguments_eq _ := rfl
  kind_eq _ := rfl
  typeModifiers_eq d := by rw [typeModifiers_tidy]
  typeParameters_eq _ := rfl
  members_eq _ := rfl
  memberHeader_eq p d t m := by
    rw [memberHeaderInside_eq_rest, memberHeaderInside_eq_rest, memberModifiers_tidy]
    rfl

/-! ### Texts -/

namespace Project

theorem Arena.exists_typeWords (hp : p.Arena) (hf : .modifiers ∈ f) {i : TypeId}
    {d : TypeDefinition} (hd : p.definition? i = some d) :
    ∃ words rest, Modifier.Lists (d.toTypeHeader.Shows f) words ∧
      entityText f p (.type i) =
        (fun t => trimEnd (Modifier.wordsText words ++ t)) <$> rest ∧
      entityText (f.without .modifiers) p (.type i) = trimEnd <$> rest := by
  obtain ⟨outers, houters⟩ := hp.exists_chain_outward hd
  have henclosing := hp.enclosing_eq houters
  refine ⟨_, typeRestText f outers d,
    Modifiers.lists_toList (mem_typeModifiers_iff hf d.toTypeHeader), ?_, ?_⟩
  · rw [entityText_type hd, typeHeaderText_eq_inside henclosing, typeHeaderInside_eq_rest,
      Facets.shown_of_mem hf, Modifiers.text_eq]
  · rw [entityText_type hd, typeHeaderText_eq_inside henclosing, typeHeaderInside_eq_rest,
      Facets.shown_of_notMem Facets.notMem_without, typeRestText_without]
    simp only [String.empty_append]

theorem Arena.exists_memberWords (hp : p.Arena) (hf : .modifiers ∈ f) {i : MemberId}
    {d : TypeDefinition} (hd : p.definition? i.declaringType = some d) {m : Member}
    (hm : p.member? i = some m) :
    ∃ words rest, Modifier.Lists (m.toMemberDocument.Shows f d.toTypeHeader) words ∧
      entityText f p (.member i) = .ok (trimEnd (Modifier.wordsText words ++ rest)) ∧
      entityText (f.without .modifiers) p (.member i) = .ok (trimEnd rest) := by
  obtain ⟨t, -, htext⟩ := hp.exists_memberHeaderInside hd hm
  refine ⟨_, memberRestText f p d.toTypeHeader t m.toMemberDocument,
    Modifiers.lists_toList (mem_memberModifiers_iff hf d.toTypeHeader m.toMemberDocument), ?_, ?_⟩
  · rw [htext, memberHeaderInside_eq_rest, Facets.shown_of_mem hf, Modifiers.text_eq]
  · rw [htext, memberHeaderInside_eq_rest, Facets.shown_of_notMem Facets.notMem_without,
      memberRestText_without, String.empty_append]

/-- Modifiers are written as one word each, in one order and without contradictions. The text of a
type or member is that without modifiers behind the words that it shows, and it depends only on which
modifiers the lists have. -/
theorem modifiers_canonical (h : p.Reachable) (hf : .modifiers ∈ f) :
    (∀ {i d}, p.definition? i = some d → ∃ words rest,
        Modifier.Lists (d.toTypeHeader.Shows f) words ∧
        entityText f p (.type i) = (fun t => trimEnd (Modifier.wordsText words ++ t)) <$> rest ∧
        entityText (f.without .modifiers) p (.type i) = trimEnd <$> rest) ∧
      (∀ {i d m}, p.definition? i.declaringType = some d → p.member? i = some m → ∃ words rest,
        Modifier.Lists (m.toMemberDocument.Shows f d.toTypeHeader) words ∧
        entityText f p (.member i) = .ok (trimEnd (Modifier.wordsText words ++ rest)) ∧
        entityText (f.without .modifiers) p (.member i) = .ok (trimEnd rest)) ∧
      ∀ {q : Project}, q.Reachable →
        p.types.toList.map TypeDefinition.tidy = q.types.toList.map TypeDefinition.tidy →
        ∀ e, entityText f p e = entityText f q e := by
  have hp := h.wellFormed
  refine ⟨hp.exists_typeWords hf, fun hd hm => hp.exists_memberWords hf hd hm, ?_⟩
  intro q hq htidy e
  exact hp.entityText_eq_of_map_eq hq.wellFormed (keepsHeaders_tidy f) htidy e

/-- A class with a method that has the same modifiers. -/
def shapeDocument (modifiers : List EntityModifier) : TypeDocument where
  kind := .classType
  name := "Shape"
  accessibility := .publicAccess
  modifiers := modifiers
  ns := "Acme"
  members :=
    [{ kind := .method, name := "Draw", accessibility := .protectedOrInternal,
       modifiers := modifiers }]

def onceDocument : TypeDocument := shapeDocument [.sealed, .new, .virtual, .abstract]

/-- The same modifiers in another order, and one of them twice. -/
def twiceDocument : TypeDocument := shapeDocument [.abstract, .virtual, .new, .sealed, .new]

def onceProject : Project := ((∅ : Project).perform (addType onceDocument none)).2

def twiceProject : Project := ((∅ : Project).perform (addType twiceDocument none)).2

/-- The class is static as it is abstract and sealed; the method is abstract and sealed, and not said
to be virtual. All words are written in the order that follows last. -/
theorem modifiers_canonical_shape :
    onceProject.Reachable ∧ twiceProject.Reachable ∧ Facet.modifiers ∈ Facets.everything ∧
      onceProject.types.toList.map TypeDefinition.tidy =
        twiceProject.types.toList.map TypeDefinition.tidy ∧
      (∀ e, entityText .everything onceProject e = entityText .everything twiceProject e) ∧
      (∃ d, onceProject.definition? ⟨0⟩ = some d ∧ ∃ words rest,
        Modifier.Lists (d.toTypeHeader.Shows .everything) words ∧
        entityText .everything onceProject (.type ⟨0⟩) =
          (fun t => trimEnd (Modifier.wordsText words ++ t)) <$> rest ∧
        entityText (Facets.everything.without .modifiers) onceProject (.type ⟨0⟩) =
          trimEnd <$> rest) ∧
      entityText .everything onceProject (.type ⟨0⟩) = .ok "public new static class Acme.Shape" ∧
      entityText .everything onceProject (.member ⟨⟨0⟩, 0⟩) =
        .ok "protected internal new abstract sealed void Acme.Shape.Draw()" ∧
      Modifier.wordsText Modifier.all =
        "public protected private internal new unsafe abstract virtual sealed static override " ++
          "readonly volatile extern partial const fixed " := by
  have honce : onceProject.Reachable := Reachable.empty.add onceDocument none
  have htwice : twiceProject.Reachable := Reachable.empty.add twiceDocument none
  have hf : Facet.modifiers ∈ Facets.everything := by decide
  have htypes : onceProject.types.toList = [onceDocument.definition ⟨0⟩ "Acme" none] := rfl
  have htypes' : twiceProject.types.toList = [twiceDocument.definition ⟨0⟩ "Acme" none] := rfl
  have htidy : onceProject.types.toList.map TypeDefinition.tidy =
      twiceProject.types.toList.map TypeDefinition.tidy := by
    rw [htypes, htypes']
    rfl
  have hd : onceProject.definition? ⟨0⟩ = some (onceDocument.definition ⟨0⟩ "Acme" none) := rfl
  obtain ⟨htype, -, hsame⟩ := modifiers_canonical honce hf
  exact ⟨honce, htwice, hf, htidy, hsame htwice htidy, ⟨_, hd, htype hd⟩, by decide +kernel,
    by decide +kernel, by decide +kernel⟩

/-- A structure that is said to be readonly, with a destructor that is said to be constant and
static. -/
def pointDocument : TypeDocument where
  kind := .structType
  name := "Point"
  ns := "Acme"
  modifiers := [.readonly]
  members := [{ kind := .destructor, name := "Finalize", modifiers := [.const, .static] }]

def pointProject : Project := ((∅ : Project).perform (addType pointDocument none)).2

/-- No rule suppresses the word that the structure carries, but it does not belong to types, so the
header is the same as without modifiers. The destructor is not said to be constant, as it has no
words. -/
theorem readonly_point_left_out :
    pointProject.Reachable ∧ Facet.modifiers ∈ Facets.standard ∧
      (∃ d, pointProject.definition? ⟨0⟩ = some d ∧
        Facets.standard.Carries d.accessibility d.modifiers (.entity .readonly) ∧
        ¬d.toTypeHeader.Suppresses (.entity .readonly)) ∧
      entityText .standard pointProject (.type ⟨0⟩) = .ok "struct Point" ∧
      entityText (Facets.standard.without .modifiers) pointProject (.type ⟨0⟩) =
        .ok "struct Point" ∧
      (∃ m, pointProject.member? ⟨⟨0⟩, 0⟩ = some m ∧ .const ∈ m.modifiers ∧
        .static ∈ m.modifiers) ∧
      entityText .standard pointProject (.member ⟨⟨0⟩, 0⟩) = .ok "~Point()" := by
  have hsuppresses : ¬pointDocument.toTypeHeader.Suppresses (.entity .readonly) := by
    rw [TypeHeader.suppresses_entity_iff]
    exact fun hs => absurd hs.2 (by decide)
  have hcarries : Facets.standard.Carries .unspecified [.readonly] (.entity .readonly) :=
    List.mem_singleton_self _
  exact ⟨Reachable.empty.add _ _, by decide, ⟨pointProject.types[0], rfl, hcarries, hsuppresses⟩,
    by decide +kernel, by decide +kernel,
    ⟨pointProject.types[0].members[0], rfl, by decide, by decide⟩, by decide +kernel⟩

end Project

end QuickInfo
