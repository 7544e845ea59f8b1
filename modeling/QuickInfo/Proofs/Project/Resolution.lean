import Mathlib.Data.List.Forall2
import QuickInfo.Proofs.Project.WellFormed

/-!
# What a resolution looks at

A reference is resolved by looking up its named parts and nothing else. If two projects resolve the
named parts to related types, they resolve the whole reference to related types.
-/
namespace QuickInfo

namespace TypeReference

mutual

/-- What the named parts of the reference, at any depth, are looked up by. -/
def keys : TypeReference → List TypeKey
  | .named name arguments => ⟨name, arguments.length⟩ :: keysAll arguments
  | .typeParameter _ => []
  | .array element _ => element.keys
  | .pointer element => element.keys
  | .byReference element => element.keys

def keysAll : List TypeReference → List TypeKey
  | [] => []
  | r :: rs => r.keys ++ keysAll rs

end

end TypeReference

/-- What the types that are written with a keyword are looked up by. -/
def Predefined.keys : List TypeKey :=
  keywords.map fun entry => ⟨QualifiedName.qualify "System" entry.1, 0⟩

/-- A relation of types that all forms of type but the named one keep. -/
structure Congruent (R : ResolvedType → ResolvedType → Prop) : Prop where
  typeParameter : ∀ name, R (.typeParameter name) (.typeParameter name)
  array : ∀ {t u} rank, R t u → R (.array t rank) (.array u rank)
  pointer : ∀ {t u}, R t u → R (.pointer t) (.pointer u)
  byReference : ∀ {t u}, R t u → R (.byReference t) (.byReference u)

theorem congruent_eq : Congruent Eq where
  typeParameter _ := rfl
  array rank h := congrArg (ResolvedType.array · rank) h
  pointer h := congrArg ResolvedType.pointer h
  byReference h := congrArg ResolvedType.byReference h

namespace Project

/-- The two projects resolve the names of the list to related types, given related arguments. -/
def ResolveAlike (R : ResolvedType → ResolvedType → Prop) (p q : Project)
    (keys : List TypeKey) : Prop :=
  ∀ key ∈ keys, ∀ ts us : List ResolvedType, ts.length = key.arity → List.Forall₂ R ts us →
    R (p.resolveNamed key.name ts) (q.resolveNamed key.name us)

variable {p q : Project} {R : ResolvedType → ResolvedType → Prop}

theorem ResolveAlike.mono {keys keys' : List TypeKey} (h : ResolveAlike R p q keys)
    (hsub : ∀ key ∈ keys', key ∈ keys) : ResolveAlike R p q keys' :=
  fun key hkey => h key (hsub key hkey)

theorem length_resolveAll (p : Project) (rs : List TypeReference) :
    (p.resolveAll rs).length = rs.length := by
  rw [resolveAll_eq_map, List.length_map]

mutual

/-- Related types for the names make related types for the reference, by recursion on it. -/
theorem related_resolve (hR : Congruent R) :
    ∀ r : TypeReference, ResolveAlike R p q r.keys → R (p.resolve r) (q.resolve r)
  | .named name arguments, h => by
    rw [TypeReference.keys] at h
    have harguments : ResolveAlike R p q (TypeReference.keysAll arguments) :=
      h.mono fun _ hkey => List.mem_cons_of_mem _ hkey
    exact h _ List.mem_cons_self _ _ (p.length_resolveAll arguments)
      (related_resolveAll hR arguments harguments)
  | .typeParameter name, _ => hR.typeParameter name
  | .array element rank, h => hR.array rank (related_resolve hR element h)
  | .pointer element, h => hR.pointer (related_resolve hR element h)
  | .byReference element, h => hR.byReference (related_resolve hR element h)

theorem related_resolveAll (hR : Congruent R) :
    ∀ rs : List TypeReference, ResolveAlike R p q (TypeReference.keysAll rs) →
      List.Forall₂ R (p.resolveAll rs) (q.resolveAll rs)
  | [], _ => .nil
  | r :: rs, h => by
    rw [TypeReference.keysAll] at h
    exact .cons (related_resolve hR r (h.mono fun _ hkey => List.mem_append_left _ hkey))
      (related_resolveAll hR rs (h.mono fun _ hkey => List.mem_append_right _ hkey))

end

/-- A reference resolves to the same type if its named parts do. -/
theorem resolve_congr {r : TypeReference}
    (h : ∀ key ∈ r.keys, ∀ ts : List ResolvedType, ts.length = key.arity →
      q.resolveNamed key.name ts = p.resolveNamed key.name ts) :
    q.resolve r = p.resolve r := by
  refine related_resolve congruent_eq r fun key hkey ts us hts hus => ?_
  rw [List.forall₂_eq_eq_eq] at hus
  subst hus
  exact h key hkey ts hts

/-- What is found as the same type in both projects is resolved alike. -/
theorem resolveNamed_eq_of_lookup {name : String} {ts : List ResolvedType}
    (h : (q.find? ⟨name, ts.length⟩).bind q.definitionType? =
      (p.find? ⟨name, ts.length⟩).bind p.definitionType?) :
    q.resolveNamed name ts = p.resolveNamed name ts := by
  rw [resolveNamed, resolveNamed, h]

/-- Projects that have the same types resolve every reference to the same type. -/
theorem WellFormed.resolve_eq_of_within (hp : p.WellFormed) (hq : q.WellFormed)
    {g : TypeDefinition → TypeDefinition} (hg : KeepsNames g) (h : p.Within g q)
    (h' : q.Within g p) (r : TypeReference) : q.resolve r = p.resolve r := by
  refine resolve_congr fun key _ ts _ => resolveNamed_eq_of_lookup ?_
  rw [hp.find?_eq_of_within hq hg h h']
  cases hf : p.find? ⟨key.name, ts.length⟩ with
  | none => rfl
  | some i => exact h.definitionType?_eq hg hp.toArena hq.toArena (hp.index_lt_of_find? hf)

theorem resolveNamed_of_find?_eq_none {name : String} {ts : List ResolvedType}
    (h : p.find? ⟨name, ts.length⟩ = none) :
    p.resolveNamed name ts = (∅ : Project).resolveNamed name ts := by
  rw [resolveNamed, resolveNamed, h, find?_empty]
  rfl

theorem resolveNamed_empty_eq_system {name simple : String}
    (hname : QualifiedName.ofText name = ⟨"System", [simple]⟩)
    (hs : (Predefined.keyword? "System" simple).isSome) :
    (∅ : Project).resolveNamed name [] = .system simple := by
  simp only [resolveNamed, find?_empty, Option.bind_none, hname, hs, if_true]

/-- The name of a type that is neither known nor predefined stays as it is. -/
theorem resolveNamed_empty_eq_unknown {name ns : String} {path : List String}
    {ts : List ResolvedType} (hname : QualifiedName.ofText name = ⟨ns, path⟩)
    (h : ts ≠ [] ∨ ∀ simple, path = [simple] → Predefined.keyword? ns simple = none) :
    (∅ : Project).resolveNamed name ts = .unknown ns (".".intercalate path) ts := by
  simp only [resolveNamed, find?_empty, Option.bind_none, hname]
  cases ts with
  | cons t ts => rfl
  | nil =>
    rcases path with _ | ⟨simple, _ | ⟨second, path⟩⟩
    · rfl
    · have hk : Predefined.keyword? ns simple = none := h.resolve_left (fun h => h rfl) simple rfl
      simp [hk]
    · rfl

/-- What is found under a name is the type of that full name, inside the types that enclose it. -/
theorem WellFormed.exists_resolveNamed_eq (hp : p.WellFormed) {name : String}
    {ts : List ResolvedType} {i : TypeId} (h : p.find? ⟨name, ts.length⟩ = some i) :
    ∃ d ds, p.definition? i = some d ∧ p.Chain d.declaringType ds ∧
      p.reflectionName d = name ∧ d.arity = ts.length ∧
      p.resolveNamed name ts = .definition ((nestIn d ds).withArguments ts) := by
  obtain ⟨d, hd, hname, harity⟩ := hp.find?_eq_some_iff.1 h
  obtain ⟨ds, hds⟩ := hp.exists_chain_outward hd
  refine ⟨d, ds, hd, hds, hname, harity, ?_⟩
  rw [resolveNamed, h, Option.bind_some, hp.definitionType?_eq hd hds]

/-- No type but the one of the namespace `System` that is not nested can have the name of a
predefined type. -/
theorem WellFormed.resolveNamed_predefined (hp : p.WellFormed) {simple : String}
    (hs : (Predefined.keyword? "System" simple).isSome) (hvalid : typeNameFault? simple = none) :
    p.resolveNamed (QualifiedName.qualify "System" simple) [] = .system simple := by
  let name : QualifiedName := ⟨"System", [simple]⟩
  have htext : name.text = QualifiedName.qualify "System" simple := by
    rw [QualifiedName.text, String.intercalate_singleton]
  have hpath : ∀ part ∈ name.path, typeNameFault? part = none := by
    intro part hpart
    rwa [List.mem_singleton.1 hpart]
  rw [← htext]
  cases hf : p.find? ⟨name.text, ([] : List ResolvedType).length⟩ with
  | none =>
    have hns : '+' ∉ "System".toList := by decide
    rw [resolveNamed_of_find?_eq_none hf]
    exact resolveNamed_empty_eq_system
      (QualifiedName.ofText_text hns hpath (List.cons_ne_nil _ _)) hs
  | some i =>
    obtain ⟨d, ds, hd, hds, hname, -, heq⟩ := hp.exists_resolveNamed_eq hf
    have hfull := QualifiedName.text_inj (hp.name_valid_of_mem_path hp.name_valid hd) hpath
      (Arena.path_ne_nil p d) (List.cons_ne_nil _ _) hname
    rw [hp.qualifiedName_eq hds] at hfull
    obtain ⟨hns, hparts⟩ := QualifiedName.mk.inj hfull
    obtain ⟨rfl, hlast⟩ : ds = [] ∧ d.name = simple := by
      simpa [List.append_eq_singleton_iff] using hparts
    rw [heq, nestIn, hns, hlast]
    rfl

theorem WellFormed.resolveNamed_of_mem_keys (hp : p.WellFormed) (hq : q.WellFormed) {key : TypeKey}
    (hkey : key ∈ Predefined.keys) :
    q.resolveNamed key.name [] = p.resolveNamed key.name [] := by
  have hvalid : ∀ entry ∈ Predefined.keywords,
      (Predefined.keyword? "System" entry.1).isSome ∧ typeNameFault? entry.1 = none := by decide
  obtain ⟨entry, hentry, rfl⟩ := List.mem_map.1 hkey
  obtain ⟨hs, hname⟩ := hvalid entry hentry
  rw [hp.resolveNamed_predefined hs hname, hq.resolveNamed_predefined hs hname]

end Project

end QuickInfo
