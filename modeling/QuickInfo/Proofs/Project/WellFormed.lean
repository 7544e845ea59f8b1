import Mathlib.Control.Monad.Basic
import QuickInfo.Proofs.Project.Links
import QuickInfo.Proofs.Project.Validation

/-!
# The invariant of projects

However types are added to the empty project, accepted or refused, its definitions are an arena and
its index finds exactly them by their written names and arities.
-/
namespace QuickInfo

/-- The namespace of an enclosed type is that of the outermost type. -/
theorem rootNamespace_nestIn {d : TypeDefinition} {outers : List TypeDefinition}
    (h : ∀ o ∈ outers, o.ns = d.ns) : (Project.nestIn d outers).rootNamespace = d.ns := by
  induction outers generalizing d with
  | nil => rfl
  | cons o outers ih =>
    obtain ⟨ho, hos⟩ := List.forall_mem_cons.1 h
    rw [Project.nestIn, DefinitionType.rootNamespace, ih fun o' ho' => (hos o' ho').trans ho.symm, ho]

theorem withArguments_nestIn (d : TypeDefinition) (outers : List TypeDefinition) :
    (Project.nestIn d outers).withArguments d.ownArguments = Project.nestIn d outers := by
  cases outers <;> rfl

namespace Project

/-- An arena whose types have valid names and are what the index finds, each under its key. -/
structure WellFormed (p : Project) : Prop extends Arena p where
  name_valid : ∀ {i d}, p.definition? i = some d → typeNameFault? d.name = none
  find?_eq_some_iff : ∀ {name : String} {arity : Nat} {i : TypeId},
    p.find? ⟨name, arity⟩ = some i ↔
      ∃ d, p.definition? i = some d ∧ p.reflectionName d = name ∧ d.arity = arity

variable {p q : Project}

theorem wellFormed_empty : (∅ : Project).WellFormed where
  toArena := arena_empty
  name_valid := by simp
  find?_eq_some_iff := by simp

theorem key_eq_iff {d : TypeDefinition} {key : TypeKey} :
    p.key d = key ↔ p.reflectionName d = key.name ∧ d.arity = key.arity := by
  cases key
  simp [key]

namespace WellFormed

theorem find?_eq_some_iff_key (hp : p.WellFormed) {key : TypeKey} {i : TypeId} :
    p.find? key = some i ↔ ∃ d, p.definition? i = some d ∧ p.key d = key := by
  simp only [key_eq_iff]
  exact hp.find?_eq_some_iff

theorem index_lt_of_find? (hp : p.WellFormed) {key : TypeKey} {i : TypeId}
    (h : p.find? key = some i) : i.index < p.size := by
  obtain ⟨d, hd, -⟩ := hp.find?_eq_some_iff_key.1 h
  exact index_lt_of_definition? hd

/-- What was found is found in a project that has the same types, and nothing else of before is. -/
theorem find?_within (hp : p.WellFormed) (hq : q.WellFormed) {g : TypeDefinition → TypeDefinition}
    (hg : KeepsNames g) (h : p.Within g q) {key : TypeKey} {i : TypeId} (hi : i.index < p.size) :
    q.find? key = some i ↔ p.find? key = some i := by
  obtain ⟨d, hd⟩ := exists_definition? hi
  obtain ⟨e, he, heq⟩ := h i d hd
  have hkey : q.key e = p.key d :=
    h.key_eq hg hp.toArena hq.toArena heq fun o ho => hp.outer_lt_size hd ho
  rw [hp.find?_eq_some_iff_key, hq.find?_eq_some_iff_key, hd, he]
  simp [hkey]

/-- Projects that have the same types find them under the same keys. -/
theorem find?_eq_of_within (hp : p.WellFormed) (hq : q.WellFormed)
    {g : TypeDefinition → TypeDefinition} (hg : KeepsNames g) (h : p.Within g q)
    (h' : q.Within g p) (key : TypeKey) : q.find? key = p.find? key := by
  ext i
  constructor
  · intro hi
    exact (hq.find?_within hp hg h' (hq.index_lt_of_find? hi)).2 hi
  · intro hi
    exact (hp.find?_within hq hg h (hp.index_lt_of_find? hi)).2 hi

theorem key_push_new (hp : p.WellFormed) {d : TypeDefinition} (h : p.Fits d) :
    (p.push d).key d = p.key d :=
  (extends_push h).key_eq hp.toArena (hp.toArena.push h) fun _ ho => h.outer_lt ho

theorem key_push_old (hp : p.WellFormed) {d e : TypeDefinition} (h : p.Fits d) {i : TypeId}
    (he : p.definition? i = some e) : (p.push d).key (noted d e i) = p.key e := by
  have hkey : (p.push d).key e = p.key e :=
    (extends_push h).key_eq hp.toArena (hp.toArena.push h) fun o ho => hp.outer_lt_size he ho
  rw [← hkey]
  rw [noted]
  split <;> rfl

/-- The index finds the types under their keys again after a type with a new key was added. -/
theorem find?_push_iff (hp : p.WellFormed) {d : TypeDefinition} (h : p.Fits d)
    (hnew : p.find? (p.key d) = none) {key : TypeKey} {i : TypeId} :
    (p.push d).find? key = some i ↔
      ∃ e, (p.push d).definition? i = some e ∧ (p.push d).key e = key := by
  rw [find?_push]
  constructor
  · intro hi
    by_cases hk : key = p.key d
    · rw [if_pos hk, Option.some.injEq] at hi
      refine ⟨d, ?_, (hp.key_push_new h).trans hk.symm⟩
      rw [← hi, h.id_eq]
      exact definition?_push_new h
    · rw [if_neg hk, hp.find?_eq_some_iff_key] at hi
      obtain ⟨e, he, hke⟩ := hi
      exact ⟨_, definition?_push_old h he, (hp.key_push_old h he).trans hke⟩
  · rintro ⟨e, he, hk⟩
    rcases definition?_push_cases h he with ⟨rfl, rfl⟩ | ⟨e', he', rfl⟩
    · rw [if_pos (hk.symm.trans (hp.key_push_new h)), h.id_eq]
    · rw [hp.key_push_old h he'] at hk
      have hfe : p.find? key = some i := hp.find?_eq_some_iff_key.2 ⟨e', he', hk⟩
      have hne : key ≠ p.key d := by
        rintro rfl
        rw [hnew] at hfe
        cases hfe
      rw [if_neg hne, hfe]

/-- A type with a new key can be added. -/
theorem push (hp : p.WellFormed) {d : TypeDefinition} (h : p.Fits d)
    (hname : typeNameFault? d.name = none) (hnew : p.find? (p.key d) = none) :
    (p.push d).WellFormed := by
  refine ⟨hp.toArena.push h, ?_, ?_⟩
  · intro i e he
    rcases definition?_push_cases h he with ⟨rfl, rfl⟩ | ⟨e', he', rfl⟩
    · exact hname
    · rw [toTypeHeader_noted]
      exact hp.name_valid he'
  · intro name arity i
    rw [hp.find?_push_iff h hnew]
    simp only [key_eq_iff]

/-- Types with new and distinct keys can be added one after another. -/
theorem pushes (hp : p.WellFormed) {ds : List TypeDefinition} (h : Pushes p ds q)
    (hname : ∀ d ∈ ds, typeNameFault? d.name = none) (hnew : ∀ d ∈ ds, p.find? (q.key d) = none)
    (hnodup : (ds.map q.key).Nodup) : q.WellFormed := by
  induction h with
  | nil p => exact hp
  | @cons p q d ds hd hds ih =>
    obtain ⟨hdname, hname⟩ := List.forall_mem_cons.1 hname
    obtain ⟨hdnew, hnew⟩ := List.forall_mem_cons.1 hnew
    rw [List.map_cons, List.nodup_cons] at hnodup
    have hkey : q.key d = p.key d :=
      (Pushes.cons hd hds).extension.key_eq hp.toArena (hds.arena (hp.toArena.push hd))
        fun o ho => hd.outer_lt ho
    refine ih (hp.push hd hdname (hkey ▸ hdnew)) hname (fun e he => ?_) hnodup.2
    have hne : q.key e ≠ p.key d := fun heq =>
      hnodup.1 (List.mem_map.2 ⟨e, he, heq.trans hkey.symm⟩)
    rw [find?_push, if_neg hne]
    exact hnew e he

/-- A document that passes the check is inserted into a project that stays well formed. -/
theorem insert (hp : p.WellFormed) {d : TypeDocument} {outer : Option TypeId} {s : Scope}
    {keys : List TypeKey} (hs : p.scope d outer = .ok s) (hv : p.validate s [] d = .ok keys) :
    (p.insert s.ns outer d).WellFormed := by
  obtain ⟨hpush, hkeys⟩ := hp.toArena.pushes_insert hs
  rw [validate_eq_checkAll s outer p.size, checkAll_eq_ok_iff] at hv
  obtain ⟨hnames, ⟨hfree, hnodup⟩, -⟩ := hv
  refine hp.pushes hpush ?_ ?_ ?_
  · intro e he
    obtain ⟨a, ha, rfl⟩ := List.mem_map.1 he
    exact (hnames a ha).1
  · intro e he
    obtain ⟨a, ha, rfl⟩ := List.mem_map.1 he
    rw [hkeys a ha]
    exact (hfree a ha).1
  · rw [List.map_map]
    have hmap : (d.arrivals s outer p.size).map ((p.insert s.ns outer d).key ∘ Arrival.definition s.ns)
        = (d.arrivals s outer p.size).map (·.key) := List.map_congr_left hkeys
    rw [hmap]
    exact hnodup

theorem addType (hp : p.WellFormed) (d : TypeDocument) (outer : Option TypeId) :
    (p.perform (addType d outer)).2.WellFormed := by
  obtain ⟨e, he⟩ | ⟨s, keys, hs, hv, hadd⟩ := perform_addType_cases p d outer
  · rw [he]
    exact hp
  · rw [hadd]
    exact hp.insert hs hv

end WellFormed

theorem Reachable.wellFormed (h : p.Reachable) : p.WellFormed := by
  induction h with
  | empty => exact wellFormed_empty
  | add d outer _ ih => exact ih.addType d outer

theorem Reachable.addTypes (h : p.Reachable) (ds : List TypeDocument) :
    (p.perform (addTypes ds)).2.Reachable := by
  induction ds generalizing p with
  | nil => exact h
  | cons d ds ih =>
    have hd := Reachable.add d none h
    rw [Project.addTypes, perform_bind]
    rcases hp : p.perform (addType d none) with ⟨e | id, q⟩
    · rw [hp] at hd
      exact hd
    · rw [hp] at hd
      exact ih hd

/-- Loading a snapshot is adding types to the empty project. -/
theorem reachable_of_ofDocument {d : AssemblyDocument} (h : ofDocument d = .ok p) :
    p.Reachable := by
  have hr := Reachable.empty.addTypes d.types
  rw [ofDocument] at h
  rcases hp : (∅ : Project).perform (Project.addTypes d.types) with ⟨e | u, q⟩
  · rw [hp] at h
    cases h
  · rw [hp] at h hr
    cases h
    exact hr

theorem Arena.ns_of_chain (hp : p.Arena) {link : Option TypeId} {ds : List TypeDefinition}
    {ns : String} (h : p.Chain link ds)
    (hns : ∀ o e, link = some o → p.definition? o = some e → ns = e.ns) : ∀ o ∈ ds, o.ns = ns := by
  induction h with
  | nil => simp
  | @cons id d ds hd _ ih =>
    have hdns : ns = d.ns := hns id d rfl hd
    refine List.forall_mem_cons.2 ⟨hdns.symm, ih fun o e ho he => ?_⟩
    rw [hdns, hp.ns_eq hd ho he]

/-- Every type declares a type, with its own type parameters as arguments. -/
theorem Arena.exists_definitionType? (hp : p.Arena) {i : TypeId} {d : TypeDefinition}
    (hd : p.definition? i = some d) : ∃ t, p.definitionType? i = some t ∧
      t.rootNamespace = d.ns ∧ t.withArguments d.ownArguments = t := by
  obtain ⟨ds, hds⟩ := hp.exists_chain_outward hd
  refine ⟨nestIn d ds, hp.definitionType?_eq hd hds,
    rootNamespace_nestIn (hp.ns_of_chain hds fun o e ho he => ?_), withArguments_nestIn d ds⟩
  exact hp.ns_eq hd ho he

theorem resolveAll_typeParameters (p : Project) (h : TypeHeader) :
    p.resolveAll (h.typeParameters.map fun a => .typeParameter a.name) = h.ownArguments := by
  rw [resolveAll_eq_map, List.map_map]
  rfl

/-- A project is an arena whose index is a bijection between its types and their written names and
arities; so every type is what its own name, with its own type parameters as arguments, resolves
to. -/
theorem reachable_invariant (h : p.Reachable ∨ ∃ d, ofDocument d = .ok p) :
    p.WellFormed ∧
      (∀ {i j d e}, p.definition? i = some d → p.definition? j = some e →
        p.reflectionName d = p.reflectionName e → d.arity = e.arity → i = j) ∧
      ∀ {i d}, p.definition? i = some d → ∃ t, p.definitionType? i = some t ∧
        p.resolve (.named (p.reflectionName d)
          (d.typeParameters.map fun a => .typeParameter a.name)) = .definition t ∧
        t.rootNamespace = d.ns := by
  have hr : p.Reachable := by
    rcases h with h | ⟨d, hd⟩
    · exact h
    · exact reachable_of_ofDocument hd
  have hp := hr.wellFormed
  have hfind : ∀ {i d}, p.definition? i = some d →
      p.find? ⟨p.reflectionName d, d.arity⟩ = some i := fun hd =>
    hp.find?_eq_some_iff.2 ⟨_, hd, rfl, rfl⟩
  refine ⟨hp, ?_, ?_⟩
  · intro i j d e hd he hname harity
    have hj := hfind he
    rw [← hname, ← harity, hfind hd] at hj
    exact Option.some.inj hj
  · intro i d hd
    obtain ⟨t, ht, hroot, hargs⟩ := hp.exists_definitionType? hd
    refine ⟨t, ht, ?_, hroot⟩
    have hlen : d.ownArguments.length = d.arity := by
      rw [TypeHeader.ownArguments, List.length_map, TypeHeader.arity]
    rw [resolve, resolveAll_typeParameters, resolveNamed, hlen, hfind hd, Option.bind_some, ht]
    exact congrArg ResolvedType.definition hargs

/-- A class with the given type parameters, a method and a nested structure. -/
def outerDocument (parameters : List String) : TypeDocument where
  kind := .classType
  name := "Outer"
  typeParameters := parameters.map fun name => ⟨name, .invariant⟩
  ns := "Acme"
  members := [{ kind := .method, name := "Run" }]
  nestedTypes := [{ kind := .structType, name := "Inner" }]

/-- An enumeration; its namespace counts only if it is not nested. -/
def extraDocument : TypeDocument where
  kind := .enumType
  name := "Extra"
  ns := "Other"

/-- The project with these two types alone. -/
def outerProject (parameters : List String) : Project :=
  ((∅ : Project).perform (addType (outerDocument parameters) none)).2

theorem reachable_outerProject (parameters : List String) : (outerProject parameters).Reachable :=
  Reachable.empty.add _ _

/-- An addition that is accepted, one that is refused, and one below an existing type. -/
theorem reachable_invariant_outer :
    ∃ p : Project, p.Reachable ∧ p.size = 3 ∧ p.WellFormed ∧
      ∃ t, p.definitionType? ⟨0⟩ = some t ∧
        p.resolve (.named "Acme.Outer" [.typeParameter "T"]) = .definition t ∧
        t.rootNamespace = "Acme" := by
  let p := (((outerProject ["T"]).perform (addType (outerDocument ["U"]) none)).2.perform
    (addType extraDocument (some ⟨0⟩))).2
  have hr : p.Reachable := ((reachable_outerProject ["T"]).add _ _).add _ _
  obtain ⟨hp, -, hresolve⟩ := reachable_invariant (.inl hr)
  have hlt : 0 < p.types.size := by decide
  have hd : p.definition? ⟨0⟩ = some p.types[0] := rfl
  exact ⟨p, hr, by decide, hp, hresolve hd⟩

end Project

end QuickInfo
