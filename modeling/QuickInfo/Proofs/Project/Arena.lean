import QuickInfo.Proofs.QualifiedName

/-!
# The arena of a project

Every type stands at its identifier, behind the types that enclose it, and an enclosing type lists
the types nested in it in their order. In such an arena the enclosing types of every type are found,
and its written name continues that of its enclosing type.
-/
namespace QuickInfo.Project

/-- The definitions of a project stand where their identifiers say and are linked both ways. -/
structure Arena (p : Project) : Prop where
  id_eq : ∀ {i d}, p.definition? i = some d → d.id = i
  memberId_eq : ∀ {i : TypeId} {d : TypeDefinition} {j : Nat} {m : Member},
    p.definition? i = some d → d.members[j]? = some m → m.id = ⟨i, j⟩
  outer_lt : ∀ {i d} {o : TypeId}, p.definition? i = some d → d.declaringType = some o →
    o.index < i.index
  ns_eq : ∀ {i d o e}, p.definition? i = some d → d.declaringType = some o →
    p.definition? o = some e → d.ns = e.ns
  nested_sorted : ∀ {o e}, p.definition? o = some e →
    e.nestedTypes.Pairwise fun i j => i.index < j.index
  mem_nested : ∀ {o e i}, p.definition? o = some e →
    (i ∈ e.nestedTypes ↔ ∃ d, p.definition? i = some d ∧ d.declaringType = some o)

/-- The definitions from a link outward, up to a type without enclosing type. -/
inductive Chain (p : Project) : Option TypeId → List TypeDefinition → Prop where
  | nil : Chain p none []
  | cons {id : TypeId} {d : TypeDefinition} {ds : List TypeDefinition} :
    p.definition? id = some d → Chain p d.declaringType ds → Chain p (some id) (d :: ds)

variable {p : Project}

theorem definition?_eq_none_iff {id : TypeId} : p.definition? id = none ↔ p.size ≤ id.index := by
  simp [definition?, size]

theorem index_lt_of_definition? {id : TypeId} {d : TypeDefinition} (h : p.definition? id = some d) :
    id.index < p.size :=
  definition?_isSome_iff.1 (by simp [h])

theorem exists_definition? {id : TypeId} (h : id.index < p.size) :
    ∃ d, p.definition? id = some d :=
  Option.isSome_iff_exists.1 (definition?_isSome_iff.2 h)

theorem Chain.outward_eq {link : Option TypeId} {ds : List TypeDefinition} (h : p.Chain link ds)
    {fuel : Nat} (hf : ds.length ≤ fuel) : p.outward fuel link = .ok ds := by
  induction h generalizing fuel with
  | nil => cases fuel <;> rfl
  | @cons id d ds hd _ ih =>
    cases fuel with
    | zero => simp at hf
    | succ fuel =>
      have ho : p.outward fuel d.declaringType = .ok ds := ih (by simpa using hf)
      simp only [outward, hd, ho]
      rfl

theorem Chain.eq_nil_iff {link : Option TypeId} {ds : List TypeDefinition} (h : p.Chain link ds) :
    ds = [] ↔ link = none := by
  cases h with
  | nil => exact iff_of_true rfl rfl
  | cons _ _ => exact iff_of_false (List.cons_ne_nil _ _) (Option.some_ne_none _)

theorem Chain.isSome_link {link : Option TypeId} {d : TypeDefinition} {ds : List TypeDefinition}
    (h : p.Chain link (d :: ds)) : link.isSome := by
  cases h
  rfl

theorem arena_empty : (∅ : Project).Arena := by
  constructor <;> simp

namespace Arena

/-- A chain is no longer than the place of its innermost type allows. -/
theorem length_le (hp : p.Arena) {link : Option TypeId} {ds : List TypeDefinition}
    (h : p.Chain link ds) {n : Nat} (hn : ∀ id, link = some id → id.index < n) :
    ds.length ≤ n := by
  induction h generalizing n with
  | nil => exact Nat.zero_le n
  | @cons id d ds hd _ ih =>
    have hid : id.index < n := hn id rfl
    have hds : ds.length ≤ id.index := ih fun o ho => hp.outer_lt hd ho
    simp only [List.length_cons]
    omega

/-- The chain of every type that is there ends. -/
theorem exists_chain (hp : p.Arena) {id : TypeId} (h : id.index < p.size) :
    ∃ ds, p.Chain (some id) ds := by
  -- on the identifier, since links lead to smaller ones
  obtain ⟨n, hn⟩ : ∃ n, id.index = n := ⟨_, rfl⟩
  induction n using Nat.strongRecOn generalizing id with
  | _ n ih =>
    obtain ⟨d, hd⟩ := exists_definition? h
    cases ho : d.declaringType with
    | none => exact ⟨[d], .cons hd (ho ▸ .nil)⟩
    | some o =>
      have hlt := hp.outer_lt hd ho
      have hos : o.index < p.size := by omega
      obtain ⟨ds, hds⟩ := ih o.index (by omega) hos rfl
      exact ⟨d :: ds, .cons hd (ho ▸ hds)⟩

theorem exists_chain_of_link (hp : p.Arena) {link : Option TypeId}
    (h : ∀ id, link = some id → id.index < p.size) : ∃ ds, p.Chain link ds := by
  cases link with
  | none => exact ⟨[], .nil⟩
  | some id => exact hp.exists_chain (h id rfl)

theorem outer_lt_size (hp : p.Arena) {i o : TypeId} {d : TypeDefinition}
    (hd : p.definition? i = some d) (ho : d.declaringType = some o) : o.index < p.size :=
  Nat.lt_trans (hp.outer_lt hd ho) (index_lt_of_definition? hd)

/-- The chain from the enclosing type of every type ends. -/
theorem exists_chain_outward (hp : p.Arena) {i : TypeId} {d : TypeDefinition}
    (hd : p.definition? i = some d) : ∃ ds, p.Chain d.declaringType ds :=
  hp.exists_chain_of_link fun _ ho => hp.outer_lt_size hd ho

theorem enclosing_eq (hp : p.Arena) {d : TypeDefinition} {ds : List TypeDefinition}
    (h : p.Chain d.declaringType ds) : p.enclosing d = .ok ds := by
  refine h.outward_eq (hp.length_le h fun id hid => ?_)
  rw [hid] at h
  cases h with
  | cons hd _ => exact index_lt_of_definition? hd

theorem qualifiedName_eq (hp : p.Arena) {d : TypeDefinition} {ds : List TypeDefinition}
    (h : p.Chain d.declaringType ds) :
    p.qualifiedName d = ⟨d.ns, (ds.reverse.map fun o => o.name) ++ [d.name]⟩ := by
  simp only [qualifiedName, hp.enclosing_eq h]

theorem path_ne_nil (p : Project) (d : TypeDefinition) : (p.qualifiedName d).path ≠ [] := by
  unfold qualifiedName
  split <;> simp

/-- All names in the full name of a type are names of types. -/
theorem name_valid_of_mem_path (hp : p.Arena)
    (hnames : ∀ {i d}, p.definition? i = some d → typeNameFault? d.name = none) {i : TypeId}
    {d : TypeDefinition} (hd : p.definition? i = some d) :
    ∀ name ∈ (p.qualifiedName d).path, typeNameFault? name = none := by
  obtain ⟨ds, hds⟩ := hp.exists_chain (index_lt_of_definition? hd)
  have hmem : ∀ {link ds}, p.Chain link ds → ∀ o ∈ ds, typeNameFault? o.name = none := by
    intro link ds h
    induction h with
    | nil => simp
    | cons hd _ ih => exact List.forall_mem_cons.2 ⟨hnames hd, ih⟩
  cases hds with
  | cons hd' hds =>
    obtain rfl := Option.some.inj (hd.symm.trans hd')
    rw [hp.qualifiedName_eq hds]
    simp only [List.mem_append, List.mem_map, List.mem_reverse, List.mem_singleton]
    rintro name (⟨o, ho, rfl⟩ | rfl)
    · exact hmem hds o ho
    · exact hnames hd

/-- A nested type is named after its enclosing type. -/
theorem qualifiedName_nested (hp : p.Arena) {d e : TypeDefinition} {o : TypeId}
    (ho : d.declaringType = some o) (he : p.definition? o = some e) (hns : d.ns = e.ns) :
    p.qualifiedName d = ⟨e.ns, (p.qualifiedName e).path ++ [d.name]⟩ := by
  obtain ⟨ds, hds⟩ := hp.exists_chain_outward he
  have hd : p.Chain d.declaringType (e :: ds) := ho ▸ .cons he hds
  rw [hp.qualifiedName_eq hd, hp.qualifiedName_eq hds, hns]
  simp

theorem reflectionName_nested (hp : p.Arena) {d e : TypeDefinition} {o : TypeId}
    (ho : d.declaringType = some o) (he : p.definition? o = some e) (hns : d.ns = e.ns) :
    p.reflectionName d = p.reflectionName e ++ "+" ++ d.name := by
  have hq : p.qualifiedName e = ⟨e.ns, (p.qualifiedName e).path⟩ := by
    unfold qualifiedName
    split <;> rfl
  rw [reflectionName, hp.qualifiedName_nested ho he hns,
    QualifiedName.text_append _ (path_ne_nil p e), reflectionName, ← hq]

end Arena

theorem reflectionName_topLevel (p : Project) {d : TypeDefinition} (h : d.declaringType = none) :
    p.reflectionName d = QualifiedName.qualify d.ns d.name := by
  rw [reflectionName, p.qualifiedName_of_topLevel h, QualifiedName.text,
    String.intercalate_singleton]

/-- The scope that a link leads to. -/
def scopeAt (p : Project) (ns : String) (outer : Option TypeId) : Scope :=
  ⟨ns, (outer.bind p.definition?).map p.reflectionName⟩

/-- The key of a type is looked up as it is written in the scope of the type. -/
theorem Arena.key_eq (hp : p.Arena) {d : TypeDefinition}
    (hd : ∀ o, d.declaringType = some o → ∃ e, p.definition? o = some e ∧ d.ns = e.ns) :
    p.key d = (p.scopeAt d.ns d.declaringType).keyOf d.toTypeHeader := by
  have hname : p.reflectionName d = (p.scopeAt d.ns d.declaringType).nameOf d.name := by
    cases ho : d.declaringType with
    | none => exact p.reflectionName_topLevel ho
    | some o =>
      obtain ⟨e, he, hns⟩ := hd o ho
      simp only [hp.reflectionName_nested ho he hns, scopeAt, Scope.nameOf, Option.bind_some, he,
        Option.map_some]
  rw [key, hname, Scope.keyOf]

end QuickInfo.Project
