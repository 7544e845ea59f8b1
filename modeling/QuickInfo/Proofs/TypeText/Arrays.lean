import QuickInfo.Header
import QuickInfo.Proofs.TypeText.Reading

/-!
# Arrays of arrays

The text of an array of arrays has the brackets of the innermost array first, right behind the type
of the items, and those of the outermost array last. The order from the outermost array inwards is
another one, unless the ranks are the same in both directions.
-/
namespace QuickInfo

/-- Arrays around a type, given by their ranks from the outermost one inwards. -/
def ResolvedType.arrays (ranks : List Nat) (t : ResolvedType) : ResolvedType :=
  ranks.foldr (fun rank t => .array t rank) t

def TypeReference.arrays (ranks : List Nat) (r : TypeReference) : TypeReference :=
  ranks.foldr (fun rank r => .array r rank) r

def TypeSyntax.arrays (ranks : List Nat) (t : TypeSyntax) : TypeSyntax :=
  ranks.foldr (fun rank t => .array t rank) t

namespace TypeSyntax

theorem arrays_cons (rank : Nat) (ranks : List Nat) (t : TypeSyntax) :
    t.arrays (rank :: ranks) = .array (t.arrays ranks) rank := rfl

theorem Readable.arrays {t : TypeSyntax} (ht : t.Readable) {ranks : List Nat}
    (hranks : ∀ rank ∈ ranks, 1 ≤ rank) : (t.arrays ranks).Readable := by
  induction ranks with
  | nil => exact ht
  | cons rank ranks ih =>
    obtain ⟨hrank, hranks⟩ := List.forall_mem_cons.1 hranks
    exact .array (ih hranks) hrank

theorem arrays_primitive_inj {word : String} {ranks ranks' : List Nat}
    (h : (primitive word).arrays ranks = (primitive word).arrays ranks') : ranks = ranks' := by
  induction ranks generalizing ranks' with
  | nil =>
    cases ranks' with
    | nil => rfl
    | cons rank' ranks' => cases h
  | cons rank ranks ih =>
    cases ranks' with
    | nil => cases h
    | cons rank' ranks' =>
      rw [arrays_cons, arrays_cons] at h
      obtain ⟨helement, rfl⟩ := TypeSyntax.array.inj h
      rw [ih helement]

theorem ofType_arrays (naming : Naming) (ranks : List Nat) (t : ResolvedType) :
    ofType naming (t.arrays ranks) = (ofType naming t).arrays ranks := by
  induction ranks with
  | nil => rfl
  | cons rank ranks ih => exact congrArg (TypeSyntax.array · rank) ih

end TypeSyntax

theorem Project.resolve_arrays (p : Project) (ranks : List Nat) (r : TypeReference) :
    p.resolve (r.arrays ranks) = (p.resolve r).arrays ranks := by
  induction ranks with
  | nil => rfl
  | cons rank ranks ih => exact congrArg (ResolvedType.array · rank) ih

namespace Spacing

variable (o : Spacing)

/-- The brackets of arrays, one after the other. -/
def arrayRanks (ranks : List Nat) : String := String.join (ranks.map o.arrayRank)

theorem type_arrays (ranks : List Nat) (t : TypeSyntax) :
    o.type (t.arrays ranks) = o.type t ++ o.arrayRanks ranks.reverse := by
  induction ranks with
  | nil => simp [TypeSyntax.arrays, arrayRanks]
  | cons rank ranks ih =>
    rw [TypeSyntax.arrays_cons, type, ih, List.reverse_cons, arrayRanks, arrayRanks, List.map_append,
      String.join_append, String.append_assoc]
    simp

variable {o}

/-- Brackets are read back, as they are behind the word of a predefined type. -/
theorem arrayRanks_inj {ranks ranks' : List Nat} (hranks : ∀ rank ∈ ranks, 1 ≤ rank)
    (hranks' : ∀ rank ∈ ranks', 1 ≤ rank) (h : o.arrayRanks ranks = o.arrayRanks ranks') :
    ranks = ranks' := by
  have hint : (TypeSyntax.primitive "int").Readable := .primitive (by decide)
  have htext : o.type ((TypeSyntax.primitive "int").arrays ranks.reverse) =
      o.type ((TypeSyntax.primitive "int").arrays ranks'.reverse) := by
    rw [type_arrays, type_arrays, List.reverse_reverse, List.reverse_reverse, h]
  have harrays := type_inj (hint.arrays (by simpa using hranks)) (hint.arrays (by simpa using hranks'))
    htext
  exact List.reverse_injective (TypeSyntax.arrays_primitive_inj harrays)

end Spacing

open Spacing

theorem typeText_arrays (f : Facets) (ranks : List Nat) (t : ResolvedType) :
    typeText f (t.arrays ranks) = typeText f t ++ standard.arrayRanks ranks.reverse := by
  rw [typeText, TypeSyntax.ofType_arrays, type_arrays, typeText]

theorem referenceText_arrays (f : Facets) (p : Project) (ranks : List Nat) (r : TypeReference) :
    referenceText f p (r.arrays ranks) =
      referenceText f p r ++ standard.arrayRanks ranks.reverse := by
  rw [referenceText, p.resolve_arrays, typeText_arrays, referenceText]

/-- The return type of a member is written as a reference. -/
theorem returnTypeText_memberDeclaration (f : Facets) (p : Project) (inInterface : Bool)
    {m : MemberDocument} (h : m.hasReturnType = true) :
    (f.switches.memberDeclaration p inInterface m).returnTypeText =
      referenceText f p m.returnType ++ " " := by
  rw [Switches.memberDeclaration, MemberDeclaration.returnTypeText, h]
  rfl

/-- The type of a parameter is written as a reference. -/
theorem standard_parameter (f : Facets) (p : Project) (a : Parameter) :
    standard.parameter (f.switches.declareParameter p a) =
      ParameterModifier.text (f.switches.declareParameter p a).modifier ++
        referenceText f p a.type ++ f.shown .parameterNames (" " ++ a.name) := by
  rw [parameter, Facets.shown]
  cases hf : f.has .parameterNames <;>
    simp [Switches.declareParameter, Facets.switches, hf, referenceText, typeText]

/-- A parameter that is no reference to a variable has its own modifier. -/
theorem modifier_declareParameter (s : Switches) {p : Project} {a : Parameter}
    (h : ∀ t, p.resolve a.type ≠ .byReference t) :
    (s.declareParameter p a).modifier = a.modifier := by
  rw [Switches.declareParameter]
  split
  · next t ht => exact absurd ht (h t)
  · rfl

theorem parameter_declareParameter (f : Facets) (p : Project) {a : Parameter}
    (h : ∀ t, p.resolve a.type ≠ .byReference t) :
    standard.parameter (f.switches.declareParameter p a) =
      ParameterModifier.text a.modifier ++ referenceText f p a.type ++
        f.shown .parameterNames (" " ++ a.name) := by
  rw [standard_parameter, modifier_declareParameter f.switches h]

/-- Everywhere the text of an array of arrays is that of the items and the brackets from the
innermost array outwards. It has the brackets from the outermost array inwards exactly if the ranks
are the same in both directions. -/
theorem arrays_text (f : Facets) (p : Project) {ranks : List Nat} (hne : ranks ≠ [])
    (hranks : ∀ rank ∈ ranks, 1 ≤ rank) :
    (∀ t : ResolvedType,
        typeText f (t.arrays ranks) = typeText f t ++ standard.arrayRanks ranks.reverse) ∧
      (∀ r : TypeReference, referenceText f p (r.arrays ranks) =
        referenceText f p r ++ standard.arrayRanks ranks.reverse) ∧
      (∀ {m : MemberDocument} (r : TypeReference) (inInterface : Bool), m.hasReturnType = true →
        m.returnType = r.arrays ranks →
        (f.switches.memberDeclaration p inInterface m).returnTypeText =
          referenceText f p r ++ standard.arrayRanks ranks.reverse ++ " ") ∧
      (∀ {a : Parameter} (r : TypeReference), a.type = r.arrays ranks →
        standard.parameter (f.switches.declareParameter p a) =
          ParameterModifier.text a.modifier ++
            (referenceText f p r ++ standard.arrayRanks ranks.reverse) ++
            f.shown .parameterNames (" " ++ a.name)) ∧
      (standard.arrayRanks ranks.reverse = standard.arrayRanks ranks ↔ ranks.reverse = ranks) := by
  refine ⟨typeText_arrays f ranks, referenceText_arrays f p ranks, ?_, ?_, ?_⟩
  · intro m r inInterface hm htype
    rw [returnTypeText_memberDeclaration f p inInterface hm, htype, referenceText_arrays]
  · intro a r htype
    have harray : ∀ t, p.resolve a.type ≠ .byReference t := by
      obtain ⟨rank, ranks, rfl⟩ := List.exists_cons_of_ne_nil hne
      intro t ht
      rw [htype, p.resolve_arrays] at ht
      cases ht
    rw [parameter_declareParameter f p harray, htype, referenceText_arrays]
  · constructor
    · exact arrayRanks_inj (by simpa using hranks) hranks
    · intro h
      rw [h]

/-- A reference to an array with two dimensions of arrays with one dimension. -/
theorem arrays_text_table :
    (∀ rank ∈ [2, 1], 1 ≤ rank) ∧
      (∀ f p r, referenceText f p (TypeReference.arrays [2, 1] r) =
        referenceText f p r ++ standard.arrayRanks [1, 2]) ∧
      standard.arrayRanks [1, 2] ≠ standard.arrayRanks [2, 1] := by
  have hranks : ∀ rank ∈ [2, 1], 1 ≤ rank := by decide
  have hne : [2, 1] ≠ [] := by decide
  refine ⟨hranks, ?_, ?_⟩
  · intro f p
    exact (arrays_text f p hne hranks).2.1
  · have hreverse := (arrays_text .standard ∅ hne hranks).2.2.2.2
    exact fun h => absurd (hreverse.1 h) (by decide)

/-- In C# the text `int[,][]` is that of an array with two dimensions of arrays with one; its own
text says the opposite. -/
theorem arrays_inside_out :
    typeText .standard ((ResolvedType.system "Int32").arrays [2, 1]) = "int[][,]" ∧
      typeText .standard (.system "Int32") ++ standard.arrayRanks [2, 1] = "int[,][]" ∧
      typeText .standard ((ResolvedType.system "Int32").arrays [2, 1]) ≠
        typeText .standard (.system "Int32") ++ standard.arrayRanks [2, 1] := by
  decide +kernel

end QuickInfo
