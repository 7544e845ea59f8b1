import QuickInfo.Header
import QuickInfo.Proofs.Project.Resolution

/-!
# How known and unknown types are spelled

A type that a project knows is spelled by following its links to enclosing types; one that it does
not know is spelled by reading the name that a reference has for it. Both give the same text, unless
the enclosing types are generic, as a reference has no arguments for them.
-/
namespace QuickInfo

namespace TypeSyntax

theorem path_concat (target : Option TypeSyntax) (names : List String) (name : String) :
    path target (names ++ [name]) = some (attach (path target names) name []) := by
  rw [path, List.foldl_concat]
  rfl

/-- The enclosing types of a type are spelled by their names alone if they are not generic. -/
theorem path_enclosing (naming : Naming) {o : TypeDefinition} {ds : List TypeDefinition}
    (ho : o.arity = 0) (hds : ∀ e ∈ ds, e.arity = 0 ∧ e.ns = o.ns) :
    path (ofNamespace? naming o.ns) ((ds.reverse.map fun e => e.name) ++ [o.name]) =
      some (ofDefinition naming (Project.nestIn o ds)) := by
  have harguments : ∀ {e : TypeDefinition}, e.arity = 0 → e.ownArguments = [] := by
    intro e he
    rw [TypeHeader.ownArguments, List.eq_nil_of_length_eq_zero he, List.map_nil]
  rw [path_concat, Option.some.injEq]
  -- outward: the type that encloses all of them gives the first name
  induction ds generalizing o with
  | nil =>
    rw [Project.nestIn, ofDefinition, harguments ho]
    rfl
  | cons e ds ih =>
    obtain ⟨⟨he, hns⟩, hds⟩ := List.forall_mem_cons.1 hds
    rw [List.reverse_cons, List.map_append, List.map_singleton, path_concat, ← hns,
      ih he fun e' he' => ⟨(hds e' he').1, (hds e' he').2.trans hns.symm⟩, Project.nestIn,
      ofDefinition, harguments ho]
    rfl

/-- Only a type of the name `Nullable` is written with a question mark. -/
theorem orNullable_of_ne {ns name : String} {arguments : List TypeSyntax} {other : TypeSyntax}
    (h : ¬(arguments.length = 1 ∧ ns = "System" ∧ name = "Nullable")) :
    orNullable ns name arguments other = other := by
  unfold orNullable
  split
  · exact if_neg fun hn => h ⟨rfl, hn⟩
  · rfl

theorem ofTopLevel_of_keyword?_eq_none {naming : Naming} {ns name : String}
    {arguments : List TypeSyntax} (h : arguments ≠ [] ∨ Predefined.keyword? ns name = none) :
    ofTopLevel naming ns name arguments =
      orNullable ns name arguments (attach (ofNamespace? naming ns) name arguments) := by
  unfold ofTopLevel
  split
  · next hk => simp [hk] at h
  · rfl

/-- Names that were joined with dots are spelled one after the other. -/
theorem ofUnknown_intercalate (naming : Naming) (ns : String) {names : List String} {last : String}
    (hdot : ∀ part ∈ names ++ [last], '.' ∉ part.toList) (arguments : List TypeSyntax) :
    ofUnknown naming ns (".".intercalate (names ++ [last])) arguments =
      attach (path (ofNamespace? naming ns) names) last arguments := by
  rw [ofUnknown, Text.segments_intercalate rfl hdot (by simp), List.dropLast_concat,
    List.getLastD_concat]

variable {naming : Naming} {name ns : String}

/-- A single name that is not known is spelled like that of a type in its namespace. -/
theorem ofType_unresolved_simple {simple : String}
    (hname : QualifiedName.ofText name = ⟨ns, [simple]⟩) (hdot : '.' ∉ simple.toList)
    (arguments : List ResolvedType) :
    ofType naming ((∅ : Project).resolveNamed name arguments) =
      ofTopLevel naming ns simple (ofTypes naming arguments) := by
  have hunknown : ofUnknown naming ns simple (ofTypes naming arguments) =
      attach (ofNamespace? naming ns) simple (ofTypes naming arguments) := by
    have hparts : ∀ part ∈ [] ++ [simple], '.' ∉ part.toList := by simpa using hdot
    have hjoined := ofUnknown_intercalate naming ns hparts (ofTypes naming arguments)
    rwa [List.nil_append, String.intercalate_singleton] at hjoined
  by_cases h : arguments ≠ [] ∨ Predefined.keyword? ns simple = none
  · have harguments : ofTypes naming arguments ≠ [] ∨ Predefined.keyword? ns simple = none :=
      h.imp_left fun hne => by simpa [ofTypes_eq_map] using hne
    rw [Project.resolveNamed_empty_eq_unknown hname, String.intercalate_singleton, ofType, hunknown,
      ofTopLevel_of_keyword?_eq_none harguments]
    exact h.imp_right fun hk other hother => List.singleton_inj.1 hother ▸ hk
  · obtain ⟨rfl, hk⟩ : arguments = [] ∧ Predefined.keyword? ns simple ≠ none := by
      simpa only [not_or, Decidable.not_not] using h
    obtain rfl : ns = "System" := by
      by_contra hne
      exact hk (if_neg hne)
    rw [Project.resolveNamed_empty_eq_system hname (Option.isSome_iff_ne_none.2 hk),
      ResolvedType.system, ofType]

/-- A path of names that is not known is spelled name by name. -/
theorem ofType_unresolved_path {last : String} {names : List String}
    (hname : QualifiedName.ofText name = ⟨ns, names ++ [last]⟩) (hne : names ≠ [])
    (hdot : ∀ part ∈ names ++ [last], '.' ∉ part.toList) (arguments : List ResolvedType) :
    ofType naming ((∅ : Project).resolveNamed name arguments) =
      attach (path (ofNamespace? naming ns) names) last (ofTypes naming arguments) := by
  have hlong : ∀ simple, names ++ [last] ≠ [simple] := by
    intro simple h
    have hparts : names = [] ∧ last = simple := by
      simpa [List.append_eq_singleton_iff] using h
    exact hne hparts.1
  rw [Project.resolveNamed_empty_eq_unknown hname (.inr fun simple h => absurd h (hlong simple)),
    ofType, orNullable_of_ne, ofUnknown_intercalate naming ns hdot]
  -- a dot joins the names, and there is none in `Nullable`
  rintro ⟨-, -, hnullable⟩
  have hsegments : Text.segments '.' (".".intercalate (names ++ [last])) = names ++ [last] :=
    Text.segments_intercalate rfl hdot (by simp)
  rw [hnullable] at hsegments
  exact hlong "Nullable" (hsegments.symm.trans (by decide))

/-- Two types that are written alike. -/
def SpelledAlike (naming : Naming) (t u : ResolvedType) : Prop := ofType naming t = ofType naming u

theorem congruent_spelledAlike (naming : Naming) : Congruent (SpelledAlike naming) where
  typeParameter _ := rfl
  array rank h := by
    rw [SpelledAlike, ofType, ofType, h]
  pointer h := by
    rw [SpelledAlike, ofType, ofType, h]
  byReference h := by
    rwa [SpelledAlike, ofType, ofType]

theorem ofTypes_eq_of_forall₂ {ts us : List ResolvedType}
    (h : List.Forall₂ (SpelledAlike naming) ts us) : ofTypes naming ts = ofTypes naming us := by
  induction h with
  | nil => rfl
  | cons ht _ ih => rw [ofTypes, ofTypes, ht, ih]

/-- How an unknown type is spelled depends on how its arguments are spelled only. -/
theorem ofType_unresolved_congr (name : String) {ts us : List ResolvedType}
    (h : ofTypes naming ts = ofTypes naming us) :
    ofType naming ((∅ : Project).resolveNamed name ts) =
      ofType naming ((∅ : Project).resolveNamed name us) := by
  cases ts with
  | nil =>
    cases us with
    | nil => rfl
    | cons u us => simp [ofTypes] at h
  | cons t ts =>
    cases us with
    | nil => simp [ofTypes] at h
    | cons u us =>
      rw [Project.resolveNamed_empty_eq_unknown rfl (.inl (List.cons_ne_nil _ _)),
        Project.resolveNamed_empty_eq_unknown rfl (.inl (List.cons_ne_nil _ _)), ofType, ofType, h]

/-- A nested type with non-generic enclosing types is spelled by the path of names that leads to
it. -/
theorem ofType_nested {d o : TypeDefinition} {ds : List TypeDefinition}
    (hns : ∀ e ∈ o :: ds, e.ns = d.ns) (hplain : ∀ e ∈ o :: ds, e.arity = 0)
    {arguments : List ResolvedType}
    (hnullable : ¬(arguments.length = 1 ∧ d.ns = "System" ∧ d.name = "Nullable")) :
    ofType naming (.definition ((Project.nestIn d (o :: ds)).withArguments arguments)) =
      attach (path (ofNamespace? naming d.ns) ((o :: ds).reverse.map fun e => e.name)) d.name
        (ofTypes naming arguments) := by
  obtain ⟨ho, hos⟩ := List.forall_mem_cons.1 hns
  obtain ⟨hplaino, hplains⟩ := List.forall_mem_cons.1 hplain
  have hsame : ∀ e ∈ ds, e.ns = o.ns := fun e he => (hos e he).trans ho.symm
  have hlength : (ofTypes naming arguments).length = arguments.length := by
    rw [ofTypes_eq_map, List.length_map]
  rw [List.reverse_cons, List.map_append, List.map_singleton, ← ho,
    path_enclosing naming hplaino fun e he => ⟨hplains e he, hsame e he⟩]
  rw [Project.nestIn, DefinitionType.withArguments, ofType, rootNamespace_nestIn hsame, ho,
    orNullable_of_ne (hlength ▸ hnullable)]
  rfl

end TypeSyntax

namespace Project

variable {p : Project}

/-- The written name of the type says all that is shown of it: its namespace does not look like an
enclosing type, its enclosing types are not generic, and it is not a nested type that looks like the
predefined nullable type. -/
structure PlainlyNamed (p : Project) (d : TypeDefinition) : Prop where
  ns_plain : '+' ∉ d.ns.toList
  outers_plain : ∀ {outers}, p.enclosing d = .ok outers → ∀ o ∈ outers, o.arity = 0
  not_nullable : ¬(d.declaringType.isSome ∧ d.arity = 1 ∧ d.ns = "System" ∧ d.name = "Nullable")

/-- The written name of a type with a plain namespace is read back as its full name. -/
theorem WellFormed.ofText_reflectionName (hp : p.WellFormed) {i : TypeId} {d : TypeDefinition}
    (hd : p.definition? i = some d) (hns : '+' ∉ d.ns.toList) {ds : List TypeDefinition}
    (hds : p.Chain d.declaringType ds) :
    QualifiedName.ofText (p.reflectionName d) =
      ⟨d.ns, (ds.reverse.map fun o => o.name) ++ [d.name]⟩ := by
  have hq := hp.qualifiedName_eq hds
  rw [reflectionName, ← hq]
  exact QualifiedName.ofText_text (hq ▸ hns) (hp.name_valid_of_mem_path hp.name_valid hd)
    (Arena.path_ne_nil p d)

/-- A plainly named type is spelled as if it were not known. -/
theorem WellFormed.ofType_known_eq (hp : p.WellFormed) {i : TypeId} {d : TypeDefinition}
    (hd : p.definition? i = some d) (hplain : p.PlainlyNamed d) {ds : List TypeDefinition}
    (hds : p.Chain d.declaringType ds) (naming : Naming) {ts : List ResolvedType}
    (harity : d.arity = ts.length) :
    TypeSyntax.ofType naming (.definition ((nestIn d ds).withArguments ts)) =
      TypeSyntax.ofType naming ((∅ : Project).resolveNamed (p.reflectionName d) ts) := by
  have hname := hp.ofText_reflectionName hd hplain.ns_plain hds
  have hdot : ∀ part ∈ (ds.reverse.map fun o => o.name) ++ [d.name], '.' ∉ part.toList := by
    have hvalid := hp.name_valid_of_mem_path hp.name_valid hd
    rw [hp.qualifiedName_eq hds] at hvalid
    exact fun part hpart => (typeNameFault?_eq_none_iff.1 (hvalid part hpart)).2.1
  cases ds with
  | nil =>
    rw [TypeSyntax.ofType_unresolved_simple hname (hdot d.name (by simp)), nestIn,
      DefinitionType.withArguments, TypeSyntax.ofType]
  | cons o ds =>
    rw [TypeSyntax.ofType_unresolved_path hname (by simp) hdot]
    refine TypeSyntax.ofType_nested (hp.ns_of_chain hds fun _ _ ho he => hp.ns_eq hd ho he)
      (hplain.outers_plain (hp.enclosing_eq hds)) ?_
    rw [← harity]
    exact fun hn => hplain.not_nullable ⟨hds.isSome_link, hn⟩

theorem WellFormed.ofType_resolveNamed_eq (hp : p.WellFormed) (naming : Naming) {name : String}
    {ts us : List ResolvedType} (hsame : TypeSyntax.ofTypes naming ts = TypeSyntax.ofTypes naming us)
    (h : ∀ {i d}, p.find? ⟨name, ts.length⟩ = some i → p.definition? i = some d → p.PlainlyNamed d) :
    TypeSyntax.ofType naming (p.resolveNamed name ts) =
      TypeSyntax.ofType naming ((∅ : Project).resolveNamed name us) := by
  rw [← TypeSyntax.ofType_unresolved_congr name hsame]
  cases hf : p.find? ⟨name, ts.length⟩ with
  | none => rw [resolveNamed_of_find?_eq_none hf]
  | some i =>
    obtain ⟨d, ds, hd, hds, rfl, harity, hresolve⟩ := hp.exists_resolveNamed_eq hf
    rw [hresolve]
    exact hp.ofType_known_eq hd (h hf hd) hds naming harity

/-- A reference is spelled alike in a project that knows the types and in one that knows none, if
all types that it names are plainly named. -/
theorem referenceText_eq_empty (h : p.Reachable) {r : TypeReference}
    (hr : ∀ key ∈ r.keys, ∀ {i d}, p.find? key = some i → p.definition? i = some d →
      p.PlainlyNamed d) (f : Facets) : referenceText f p r = referenceText f ∅ r := by
  refine congrArg Spacing.standard.type
    (related_resolve (TypeSyntax.congruent_spelledAlike f.naming) r ?_)
  rintro ⟨name, arity⟩ hkey ts us rfl hus
  exact h.wellFormed.ofType_resolveNamed_eq f.naming (TypeSyntax.ofTypes_eq_of_forall₂ hus) (hr _ hkey)

/-- A list of arrays of a nested type; the list is not known. -/
def innerList : TypeReference :=
  .named "System.Collections.Generic.List" [.array (.named "Acme.Outer+Inner" []) 1]

/-- The nested type is known, inside a type that is not generic. -/
theorem referenceText_eq_empty_inner :
    (outerProject []).Reachable ∧ (outerProject []).find? ⟨"Acme.Outer+Inner", 0⟩ = some ⟨1⟩ ∧
      ∀ f, referenceText f (outerProject []) innerList = referenceText f ∅ innerList := by
  have hr := reachable_outerProject []
  have hinner : (outerProject []).find? ⟨"Acme.Outer+Inner", 0⟩ = some ⟨1⟩ := by decide +kernel
  have hlist : (outerProject []).find? ⟨"System.Collections.Generic.List", 1⟩ = none := by
    decide +kernel
  refine ⟨hr, hinner, referenceText_eq_empty hr ?_⟩
  intro key hkey i d hi hd
  obtain rfl | rfl : key = ⟨"System.Collections.Generic.List", 1⟩ ∨ key = ⟨"Acme.Outer+Inner", 0⟩ := by
    simpa [innerList, TypeReference.keys, TypeReference.keysAll] using hkey
  · rw [hlist] at hi
    cases hi
  · have hlt : 1 < (outerProject []).types.size := by decide
    have houters : (outerProject []).enclosing (outerProject []).types[1] =
        .ok [(outerProject []).types[0]] := rfl
    obtain rfl := Option.some.inj (hinner.symm.trans hi)
    obtain rfl : (outerProject []).types[1] = d := Option.some.inj hd
    have hns : '+' ∉ "Acme".toList := by decide
    refine ⟨hns, ?_, fun hn => Nat.zero_ne_one hn.2.1⟩
    intro outers ho o hmem
    obtain rfl := Except.ok.inj (houters.symm.trans ho)
    obtain rfl := List.mem_singleton.1 hmem
    rfl

/-- A reference has no arguments for a generic enclosing type, so the texts differ. -/
example : referenceText .everything (outerProject ["T"]) (.named "Acme.Outer+Inner" []) =
      "Acme.Outer<T>.Inner" ∧
    referenceText .everything ∅ (.named "Acme.Outer+Inner" []) = "Acme.Outer.Inner" := by
  decide +kernel

end Project

end QuickInfo
