import QuickInfo.Proofs.Project.Spelling

/-!
# Nullable types

The predefined type `System.Nullable` with one argument is written as the argument and a question
mark. A type that is nested in another one and has the same simple name is a different type; it is
taken for the predefined one if the project knows it, but not if only its name is known.
-/
namespace QuickInfo

/-- Names that are joined with dots make a single name only if there is just that one. -/
theorem Text.intercalate_eq_iff {simple : String} (hne : simple ≠ "") (hdot : '.' ∉ simple.toList)
    (names : List String) : ".".intercalate names = simple ↔ names = [simple] := by
  rcases names with _ | ⟨first, _ | ⟨second, names⟩⟩
  · simpa using hne.symm
  · simp
  · refine ⟨fun h => absurd ?_ hdot, fun h => by cases h⟩
    rw [← h, String.intercalate_cons_cons]
    simp

/-- The full name of the predefined nullable type. -/
def QualifiedName.nullable : QualifiedName := ⟨"System", ["Nullable"]⟩

/-- The type is taken for the predefined nullable type with the argument, or is a reference to a
variable of such a type. -/
def ResolvedType.NullableOf : ResolvedType → ResolvedType → Prop
  | .definition d, argument =>
    d.arguments = [argument] ∧ d.rootNamespace = "System" ∧ d.name = "Nullable"
  | .unknown ns name arguments, argument =>
    arguments = [argument] ∧ ns = "System" ∧ name = "Nullable"
  | .byReference t, argument => t.NullableOf argument
  | .typeParameter _, _ | .array _ _, _ | .pointer _, _ => False

namespace TypeSyntax

/-- A type by its name, behind its enclosing types or its namespace. -/
def byName (naming : Naming) : ResolvedType → TypeSyntax
  | .definition d => ofDefinition naming d
  | .unknown ns name arguments => ofUnknown naming ns name (ofTypes naming arguments)
  | t => ofType naming t

variable {naming : Naming} {ns name : String} {ts : List TypeSyntax} {other : TypeSyntax}

theorem attach_ne_nullable (target : Option TypeSyntax) (t : TypeSyntax) :
    attach target name ts ≠ .nullable t := by
  cases target <;> exact fun h => nomatch h

theorem ofUnknown_ne_nullable (naming : Naming) (t : TypeSyntax) :
    ofUnknown naming ns name ts ≠ .nullable t :=
  attach_ne_nullable _ t

theorem orNullable_system (t other : TypeSyntax) :
    orNullable "System" "Nullable" [t] other = .nullable t := rfl

theorem exists_orNullable_eq_iff (h : ∀ t, other ≠ .nullable t) :
    (∃ t, orNullable ns name ts other = .nullable t) ↔
      ts.length = 1 ∧ ns = "System" ∧ name = "Nullable" := by
  constructor
  · rintro ⟨t, ht⟩
    by_contra hn
    rw [orNullable_of_ne hn] at ht
    exact h t ht
  · rintro ⟨hlength, rfl, rfl⟩
    obtain ⟨t, rfl⟩ := List.length_eq_one_iff.1 hlength
    exact ⟨t, orNullable_system t other⟩

theorem orNullable_eq_iff (h : ∀ t, other ≠ .nullable t) :
    orNullable ns name ts other = other ↔ ¬∃ t, orNullable ns name ts other = .nullable t := by
  constructor
  · rintro hother ⟨t, ht⟩
    exact h t (hother.symm.trans ht)
  · rw [exists_orNullable_eq_iff h]
    exact orNullable_of_ne

theorem exists_ofTopLevel_eq_nullable_iff :
    (∃ t, ofTopLevel naming ns name ts = .nullable t) ↔
      ts.length = 1 ∧ ns = "System" ∧ name = "Nullable" := by
  by_cases h : ts ≠ [] ∨ Predefined.keyword? ns name = none
  · rw [ofTopLevel_of_keyword?_eq_none h]
    exact exists_orNullable_eq_iff (attach_ne_nullable _)
  · obtain ⟨rfl, hk⟩ : ts = [] ∧ Predefined.keyword? ns name ≠ none := by
      simpa only [not_or, Decidable.not_not] using h
    obtain ⟨keyword, hkeyword⟩ := Option.ne_none_iff_exists'.1 hk
    simp [ofTopLevel, hkeyword]

theorem length_ofTypes_eq_one_iff {ts : List ResolvedType} :
    (ofTypes naming ts).length = 1 ↔ ∃ t, ts = [t] := by
  rw [ofTypes_eq_map, List.length_map, List.length_eq_one_iff]

/-- What is written with a question mark is what is taken for the nullable type. -/
theorem exists_ofType_eq_nullable_iff (naming : Naming) :
    ∀ t : ResolvedType, (∃ u, ofType naming t = .nullable u) ↔ ∃ argument, t.NullableOf argument
  | .definition (.topLevel ns name arguments) => by
    rw [ofType, exists_ofTopLevel_eq_nullable_iff, length_ofTypes_eq_one_iff, ← exists_and_right]
    rfl
  | .definition (.nested outer name arguments) => by
    rw [ofType, exists_orNullable_eq_iff (by simp), length_ofTypes_eq_one_iff, ← exists_and_right]
    rfl
  | .unknown ns name arguments => by
    rw [ofType, exists_orNullable_eq_iff (ofUnknown_ne_nullable naming), length_ofTypes_eq_one_iff,
      ← exists_and_right]
    rfl
  | .byReference t => exists_ofType_eq_nullable_iff naming t
  | .typeParameter name => by simp [ofType, ResolvedType.NullableOf]
  | .array element rank => by simp [ofType, ResolvedType.NullableOf]
  | .pointer element => by simp [ofType, ResolvedType.NullableOf]

/-- Behind the question mark nothing but the argument is written. -/
theorem ofType_of_nullableOf (naming : Naming) {argument : ResolvedType} :
    ∀ t : ResolvedType, t.NullableOf argument →
      ofType naming t = .nullable (ofType naming argument)
  | .definition (.topLevel _ _ _), ⟨rfl, rfl, rfl⟩ => rfl
  | .definition (.nested outer _ _), ⟨rfl, hns, rfl⟩ => by
    have hroot : outer.rootNamespace = "System" := hns
    rw [ofType, hroot]
    rfl
  | .unknown _ _ _, ⟨rfl, rfl, rfl⟩ => rfl
  | .byReference t, h => ofType_of_nullableOf naming t h

/-- A nested type is written by its name unless it is taken for the nullable type. -/
theorem ofType_nested_eq_byName_iff (naming : Naming) (outer : DefinitionType) (name : String)
    (arguments : List ResolvedType) :
    ofType naming (.definition (.nested outer name arguments)) =
        byName naming (.definition (.nested outer name arguments)) ↔
      ¬∃ t, (ResolvedType.definition (.nested outer name arguments)).NullableOf t := by
  rw [← exists_ofType_eq_nullable_iff naming, ofType]
  exact orNullable_eq_iff (by simp)

theorem ofType_unknown_eq_byName_iff (naming : Naming) (ns name : String)
    (arguments : List ResolvedType) :
    ofType naming (.unknown ns name arguments) = byName naming (.unknown ns name arguments) ↔
      ¬∃ t, (ResolvedType.unknown ns name arguments).NullableOf t := by
  rw [← exists_ofType_eq_nullable_iff naming, ofType]
  exact orNullable_eq_iff (ofUnknown_ne_nullable naming)

end TypeSyntax

namespace Project

variable {p : Project}

/-- The full name of the type that a name with a number of arguments denotes: that of the type that
is found, or else the name as it is written. -/
def denoted (p : Project) (key : TypeKey) : QualifiedName :=
  match (p.find? key).bind p.definition? with
  | some d => p.qualifiedName d
  | none => .ofText key.name

/-- The key of a known type with one type parameter that is called `Nullable` and is nested in
another type of the namespace `System`. -/
structure NestedNullable (p : Project) (key : TypeKey) : Prop where
  known : (p.find? key).isSome
  arity_eq : key.arity = 1
  ns_eq : (p.denoted key).ns = "System"
  nested : 1 < (p.denoted key).path.length
  name_eq : (p.denoted key).path.getLast? = some "Nullable"

theorem denoted_of_find?_eq_none {key : TypeKey} (h : p.find? key = none) :
    p.denoted key = .ofText key.name := by
  rw [denoted, h]
  rfl

theorem denoted_of_find? {key : TypeKey} {i : TypeId} {d : TypeDefinition}
    (h : p.find? key = some i) (hd : p.definition? i = some d) :
    p.denoted key = p.qualifiedName d := by
  rw [denoted, h, Option.bind_some, hd]

theorem denoted_ne_of_nested {key : TypeKey} (h : 1 < (p.denoted key).path.length) :
    p.denoted key ≠ .nullable := by
  intro hdenoted
  rw [hdenoted] at h
  exact Nat.lt_irrefl 1 h

theorem not_nestedNullable_of_find?_eq_none {key : TypeKey} (h : p.find? key = none) :
    ¬p.NestedNullable key := by
  intro hn
  have hknown := hn.known
  rw [h] at hknown
  cases hknown

/-- An unknown type is taken for the nullable type if that is what it is called. -/
theorem nullableOf_resolveNamed_empty_iff {name : String} {ts : List ResolvedType}
    {argument : ResolvedType} :
    ((∅ : Project).resolveNamed name ts).NullableOf argument ↔
      ts = [argument] ∧ QualifiedName.ofText name = .nullable := by
  cases ts with
  | nil =>
    simp only [resolveNamed, find?_empty, Option.bind_none]
    split
    · split <;> simp [ResolvedType.system, ResolvedType.NullableOf, DefinitionType.arguments]
    · simp [ResolvedType.NullableOf]
  | cons t ts =>
    rcases hname : QualifiedName.ofText name with ⟨ns, path⟩
    have hjoined : ".".intercalate path = "Nullable" ↔ path = ["Nullable"] :=
      Text.intercalate_eq_iff (by decide) (by decide) path
    rw [resolveNamed_empty_eq_unknown hname (.inl (List.cons_ne_nil t ts)),
      ResolvedType.NullableOf, hjoined, QualifiedName.nullable, QualifiedName.mk.injEq]

namespace WellFormed

/-- A known type is taken for the nullable type whatever it is nested in. -/
theorem nullableOf_known_iff (hp : p.WellFormed) {i : TypeId} {d : TypeDefinition}
    (hd : p.definition? i = some d) {ds : List TypeDefinition} (hds : p.Chain d.declaringType ds)
    {ts : List ResolvedType} {argument : ResolvedType} :
    (ResolvedType.definition ((nestIn d ds).withArguments ts)).NullableOf argument ↔
      ts = [argument] ∧ d.ns = "System" ∧ d.name = "Nullable" := by
  have hroot : (nestIn d ds).rootNamespace = d.ns :=
    rootNamespace_nestIn (hp.ns_of_chain hds fun _ _ ho he => hp.ns_eq hd ho he)
  rw [← hroot]
  cases ds <;> rfl

theorem nullableOf_resolveNamed_iff (hp : p.WellFormed) {name : String} {ts : List ResolvedType}
    {argument : ResolvedType} :
    (p.resolveNamed name ts).NullableOf argument ↔ ts = [argument] ∧
      (p.denoted ⟨name, ts.length⟩ = .nullable ∨ p.NestedNullable ⟨name, ts.length⟩) := by
  cases hf : p.find? ⟨name, ts.length⟩ with
  | none =>
    rw [resolveNamed_of_find?_eq_none hf, nullableOf_resolveNamed_empty_iff,
      denoted_of_find?_eq_none hf, or_iff_left (not_nestedNullable_of_find?_eq_none hf)]
  | some i =>
    obtain ⟨d, ds, hd, hds, -, -, hresolve⟩ := hp.exists_resolveNamed_eq hf
    have hdenoted := (denoted_of_find? hf hd).trans (hp.qualifiedName_eq hds)
    rw [hresolve, hp.nullableOf_known_iff hd hds]
    refine and_congr_right fun hts => ⟨?_, ?_⟩
    · rintro ⟨hns, hname⟩
      rw [hns, hname] at hdenoted
      cases ds with
      | nil => exact .inl hdenoted
      | cons o ds =>
        exact .inr {
          known := by rw [hf]; rfl
          arity_eq := by rw [hts]; rfl
          ns_eq := by rw [hdenoted]
          nested := by simp [hdenoted]
          name_eq := by simp [hdenoted] }
    · rintro (h | h)
      · rw [hdenoted] at h
        have hlast := congrArg (fun q => (q.ns, q.path.getLast?)) h
        simpa [QualifiedName.nullable] using hlast
      · have hns := h.ns_eq
        have hname := h.name_eq
        rw [hdenoted] at hns hname
        exact ⟨hns, by simpa using hname⟩

/-- The name of a nested type is written as such unless the type is taken for the nullable type. -/
theorem ofType_resolveNamed_eq_byName_iff (hp : p.WellFormed) (naming : Naming) {name : String}
    {ts : List ResolvedType} (h : 1 < (p.denoted ⟨name, ts.length⟩).path.length) :
    TypeSyntax.ofType naming (p.resolveNamed name ts) =
        TypeSyntax.byName naming (p.resolveNamed name ts) ↔
      ¬∃ t, (p.resolveNamed name ts).NullableOf t := by
  cases hf : p.find? ⟨name, ts.length⟩ with
  | none =>
    rcases hname : QualifiedName.ofText name with ⟨ns, path⟩
    rw [denoted_of_find?_eq_none hf, hname] at h
    have hsingle : ∀ simple, path = [simple] → Predefined.keyword? ns simple = none := by
      rintro simple rfl
      exact absurd h (Nat.lt_irrefl 1)
    rw [resolveNamed_of_find?_eq_none hf, resolveNamed_empty_eq_unknown hname (.inr hsingle)]
    exact TypeSyntax.ofType_unknown_eq_byName_iff ..
  | some i =>
    obtain ⟨d, ds, hd, hds, -, -, hresolve⟩ := hp.exists_resolveNamed_eq hf
    rw [denoted_of_find? hf hd, hp.qualifiedName_eq hds] at h
    cases ds with
    | nil => exact absurd h (Nat.lt_irrefl 1)
    | cons o ds =>
      rw [hresolve]
      exact TypeSyntax.ofType_nested_eq_byName_iff ..

end WellFormed

/-- A reference is written with a question mark exactly if it denotes the predefined nullable type
with an argument, and a nested type is written by its name, unless the reference is to a known type
with one type parameter, called `Nullable` and nested in another type of the namespace `System`.
With such a type both fail. -/
theorem nullable_iff_denoted (h : p.Reachable) (naming : Naming) (name : String)
    (arguments : List TypeReference) :
    (((∃ t, TypeSyntax.ofType naming (p.resolve (.named name arguments)) = .nullable t) ↔
          arguments.length = 1 ∧ p.denoted ⟨name, arguments.length⟩ = .nullable) ↔
        ¬p.NestedNullable ⟨name, arguments.length⟩) ∧
      (1 < (p.denoted ⟨name, arguments.length⟩).path.length →
        (TypeSyntax.ofType naming (p.resolve (.named name arguments)) =
            TypeSyntax.byName naming (p.resolve (.named name arguments)) ↔
          ¬p.NestedNullable ⟨name, arguments.length⟩)) ∧
      ∀ argument, arguments = [argument] →
        p.denoted ⟨name, arguments.length⟩ = .nullable ∨
          p.NestedNullable ⟨name, arguments.length⟩ →
        ∀ f, referenceText f p (.named name arguments) = referenceText f p argument ++ "?" := by
  have hp := h.wellFormed
  have hlength := p.length_resolveAll arguments
  have hnullable : (∃ t, (p.resolve (.named name arguments)).NullableOf t) ↔
      arguments.length = 1 ∧ (p.denoted ⟨name, arguments.length⟩ = .nullable ∨
        p.NestedNullable ⟨name, arguments.length⟩) := by
    simp only [resolve, hp.nullableOf_resolveNamed_iff, exists_and_right, ← List.length_eq_one_iff,
      hlength]
  refine ⟨?_, ?_, ?_⟩
  · rw [TypeSyntax.exists_ofType_eq_nullable_iff, hnullable]
    constructor
    · intro hsame hn
      exact denoted_ne_of_nested hn.nested (hsame.1 ⟨hn.arity_eq, .inr hn⟩).2
    · intro hn
      rw [or_iff_left hn]
  · intro hnested
    rw [← hlength] at hnested
    rw [resolve, hp.ofType_resolveNamed_eq_byName_iff naming hnested, ← resolve, hnullable,
      or_iff_right (denoted_ne_of_nested (hlength ▸ hnested)),
      and_iff_right_of_imp fun hn : p.NestedNullable ⟨name, arguments.length⟩ => hn.arity_eq]
  · rintro argument rfl hdenoted f
    have hof : (p.resolve (.named name [argument])).NullableOf (p.resolve argument) := by
      rw [resolve, hp.nullableOf_resolveNamed_iff, hlength]
      exact ⟨rfl, hdenoted⟩
    rw [referenceText, typeText, TypeSyntax.ofType_of_nullableOf f.naming _ hof]
    rfl

/-- A class of the namespace `System` with a nested structure that is called `Nullable`. -/
def optionDocument : TypeDocument where
  kind := .classType
  name := "Option"
  ns := "System"
  nestedTypes := [{ kind := .structType, name := "Nullable", typeParameters := [⟨"T", .invariant⟩] }]

/-- The project with these two types alone. -/
def optionProject : Project := ((∅ : Project).perform (addType optionDocument none)).2

def intReference : TypeReference := .named "System.Int32" []

theorem reachable_optionProject : optionProject.Reachable := Reachable.empty.add _ _

theorem denoted_optionProject :
    optionProject.denoted ⟨"System.Option+Nullable", 1⟩ = ⟨"System", ["Option", "Nullable"]⟩ := by
  decide +kernel

theorem nestedNullable_optionProject :
    optionProject.NestedNullable ⟨"System.Option+Nullable", 1⟩ where
  known := by decide +kernel
  arity_eq := rfl
  ns_eq := by rw [denoted_optionProject]
  nested := by rw [denoted_optionProject]; decide
  name_eq := by rw [denoted_optionProject]; rfl

/-- The predefined type, and a nested type that is not known, next to one that is known. -/
theorem nullable_iff_denoted_option :
    optionProject.Reachable ∧
      (∀ f, referenceText f optionProject (.named "System.Nullable" [intReference]) =
        referenceText f optionProject intReference ++ "?") ∧
      (∀ naming, TypeSyntax.ofType naming
          (optionProject.resolve (.named "System.Choice+Nullable" [intReference])) =
        TypeSyntax.byName naming
          (optionProject.resolve (.named "System.Choice+Nullable" [intReference]))) ∧
      ∀ naming, TypeSyntax.ofType naming
          (optionProject.resolve (.named "System.Option+Nullable" [intReference])) ≠
        TypeSyntax.byName naming
          (optionProject.resolve (.named "System.Option+Nullable" [intReference])) := by
  have hr := reachable_optionProject
  have hpredefined : optionProject.denoted ⟨"System.Nullable", 1⟩ = .nullable := by decide +kernel
  have hchoice : optionProject.find? ⟨"System.Choice+Nullable", 1⟩ = none := by decide +kernel
  have hnested : 1 < (optionProject.denoted ⟨"System.Choice+Nullable", 1⟩).path.length := by
    decide +kernel
  refine ⟨hr, ?_, fun naming => ?_, fun naming hbyName => ?_⟩
  · exact (nullable_iff_denoted hr .short "System.Nullable" [intReference]).2.2 intReference rfl
      (.inl hpredefined)
  · exact ((nullable_iff_denoted hr naming "System.Choice+Nullable" [intReference]).2.1 hnested).2
      (not_nestedNullable_of_find?_eq_none hchoice)
  · exact ((nullable_iff_denoted hr naming "System.Option+Nullable" [intReference]).2.1
      nestedNullable_optionProject.nested).1 hbyName nestedNullable_optionProject

/-- The nested type is written as if it were the predefined one, once it is known. -/
theorem nested_nullable_taken :
    optionProject.Reachable ∧
      optionProject.denoted ⟨"System.Option+Nullable", 1⟩ ≠ .nullable ∧
      (∀ naming, ∃ t, TypeSyntax.ofType naming
        (optionProject.resolve (.named "System.Option+Nullable" [intReference])) = .nullable t) ∧
      referenceText .standard optionProject (.named "System.Option+Nullable" [intReference]) =
        "int?" ∧
      referenceText .standard ∅ (.named "System.Option+Nullable" [intReference]) =
        "Option.Nullable<int>" := by
  refine ⟨reachable_optionProject, denoted_ne_of_nested nestedNullable_optionProject.nested, ?_, ?_⟩
  · intro naming
    have htaken : (optionProject.resolve
        (.named "System.Option+Nullable" [intReference])).NullableOf
          (optionProject.resolve intReference) :=
      reachable_optionProject.wellFormed.nullableOf_resolveNamed_iff.2
        ⟨rfl, .inr nestedNullable_optionProject⟩
    exact ⟨_, TypeSyntax.ofType_of_nullableOf naming _ htaken⟩
  · decide +kernel

end Project

end QuickInfo
