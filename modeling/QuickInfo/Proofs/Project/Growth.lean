import QuickInfo.Proofs.Project.View

/-!
# Growth of a project

A definition is added behind all others and noted in its enclosing type; nothing else of a
definition changes. So an arena stays an arena, and names and keys stay what they are.
-/
namespace QuickInfo

namespace Project

/-- A definition that can be added next: it has the next identifier and no nested types yet, and its
enclosing type is there. -/
structure Fits (p : Project) (d : TypeDefinition) : Prop where
  id_eq : d.id = ⟨p.size⟩
  memberId_eq : ∀ {j : Nat} {m : Member}, d.members[j]? = some m → m.id = ⟨⟨p.size⟩, j⟩
  nested_eq : d.nestedTypes = []
  outer : ∀ {o : TypeId}, d.declaringType = some o → ∃ e, p.definition? o = some e ∧ d.ns = e.ns

variable {p q : Project} {d : TypeDefinition}

theorem Fits.outer_lt (h : p.Fits d) {o : TypeId} (ho : d.declaringType = some o) :
    o.index < p.size := by
  obtain ⟨e, he, -⟩ := h.outer ho
  exact index_lt_of_definition? he

/-- What a definition becomes when another one is added. -/
def noted (d e : TypeDefinition) (i : TypeId) : TypeDefinition :=
  if d.declaringType = some i then e.withNested d.id else e

theorem definition?_push (h : p.Fits d) (i : TypeId) :
    (p.push d).definition? i =
      if i.index = p.size then some d else (p.definition? i).map fun e => noted d e i := by
  have hpush : (p.types.push d)[i.index]? = if i.index = p.size then some d else p.definition? i :=
    Array.getElem?_push
  cases ho : d.declaringType with
  | none =>
    have hid : (fun e => noted d e i) = id := by
      funext e
      simp [noted, ho]
    simp only [push, definition?, noteNested, ho, hid, Option.map_id_fun, id]
    exact hpush
  | some o =>
    have hlt := h.outer_lt ho
    simp only [push, definition?, noteNested, ho, Array.getElem?_modify]
    rw [hpush]
    by_cases hi : i.index = p.size
    · simp [hi, Nat.ne_of_lt hlt]
    · by_cases hio : o.index = i.index
      · have he : o = i := by
          cases o
          cases i
          simpa using hio
        subst he
        have hn : (fun e => noted d e o) = fun e => e.withNested d.id := by
          funext e
          simp [noted, ho]
        simp [hi, hn, definition?]
      · have hn : (fun e => noted d e i) = id := by
          funext e
          have hne : o ≠ i := fun he => hio (he ▸ rfl)
          simp [noted, ho, hne]
        simp [hi, hio, hn, definition?]

theorem definition?_push_new (h : p.Fits d) : (p.push d).definition? ⟨p.size⟩ = some d := by
  rw [definition?_push h, if_pos rfl]

theorem definition?_push_old (h : p.Fits d) {i : TypeId} {e : TypeDefinition}
    (he : p.definition? i = some e) : (p.push d).definition? i = some (noted d e i) := by
  rw [definition?_push h, if_neg (Nat.ne_of_lt (index_lt_of_definition? he)), he, Option.map_some]

theorem definition?_push_cases (h : p.Fits d) {i : TypeId} {e : TypeDefinition}
    (he : (p.push d).definition? i = some e) :
    (i = ⟨p.size⟩ ∧ e = d) ∨ ∃ e', p.definition? i = some e' ∧ e = noted d e' i := by
  rw [definition?_push h] at he
  by_cases hi : i.index = p.size
  · rw [if_pos hi] at he
    refine .inl ⟨?_, (Option.some.inj he).symm⟩
    cases i
    simpa using hi
  · rw [if_neg hi, Option.map_eq_some_iff] at he
    obtain ⟨e', he', rfl⟩ := he
    exact .inr ⟨e', he', rfl⟩

@[simp] theorem toTypeHeader_noted (d e : TypeDefinition) (i : TypeId) :
    (noted d e i).toTypeHeader = e.toTypeHeader := by
  rw [noted]
  split <;> rfl

@[simp] theorem id_noted (d e : TypeDefinition) (i : TypeId) : (noted d e i).id = e.id := by
  rw [noted]
  split <;> rfl

@[simp] theorem ns_noted (d e : TypeDefinition) (i : TypeId) : (noted d e i).ns = e.ns := by
  rw [noted]
  split <;> rfl

@[simp] theorem members_noted (d e : TypeDefinition) (i : TypeId) :
    (noted d e i).members = e.members := by
  rw [noted]
  split <;> rfl

@[simp] theorem declaringType_noted (d e : TypeDefinition) (i : TypeId) :
    (noted d e i).declaringType = e.declaringType := by
  rw [noted]
  split <;> rfl

theorem mem_nested_noted {e : TypeDefinition} {i j : TypeId} :
    j ∈ (noted d e i).nestedTypes ↔
      j ∈ e.nestedTypes ∨ (d.declaringType = some i ∧ j = d.id) := by
  rw [noted]
  split <;> simp_all [TypeDefinition.withNested]

/-- The enclosing types in the grown project are old ones. -/
theorem Arena.outer_lt_size_push (hp : p.Arena) (h : p.Fits d) {i o : TypeId} {e : TypeDefinition}
    (he : (p.push d).definition? i = some e) (ho : e.declaringType = some o) :
    o.index < p.size := by
  rcases definition?_push_cases h he with ⟨rfl, rfl⟩ | ⟨e, hold, rfl⟩
  · exact h.outer_lt ho
  · have hlt := hp.outer_lt hold (declaringType_noted d e i ▸ ho)
    exact Nat.lt_trans hlt (index_lt_of_definition? hold)

/-- A new identifier is greater than those of the types that are nested in the same type. -/
theorem Arena.nested_noted_sorted (hp : p.Arena) (h : p.Fits d) {o : TypeId} {e : TypeDefinition}
    (he : p.definition? o = some e) :
    (noted d e o).nestedTypes.Pairwise fun i j => i.index < j.index := by
  rw [noted]
  split
  · refine List.pairwise_append.2 ⟨hp.nested_sorted he, List.pairwise_singleton _ _, ?_⟩
    intro i hi j hj
    obtain ⟨e', he', -⟩ := (hp.mem_nested he).1 hi
    rw [List.mem_singleton.1 hj, h.id_eq]
    exact index_lt_of_definition? he'
  · exact hp.nested_sorted he

/-- In the grown project a type is linked to `o` if it was before or is the new one. -/
theorem exists_definition?_push_iff (h : p.Fits d) {i o : TypeId} :
    (∃ e, (p.push d).definition? i = some e ∧ e.declaringType = some o) ↔
      (∃ e, p.definition? i = some e ∧ e.declaringType = some o) ∨
        d.declaringType = some o ∧ i = d.id := by
  constructor
  · rintro ⟨e, he, ho⟩
    rcases definition?_push_cases h he with ⟨rfl, rfl⟩ | ⟨e, hold, rfl⟩
    · exact .inr ⟨ho, h.id_eq.symm⟩
    · exact .inl ⟨e, hold, declaringType_noted d e i ▸ ho⟩
  · rintro (⟨e, he, ho⟩ | ⟨ho, rfl⟩)
    · exact ⟨_, definition?_push_old h he, by rw [declaringType_noted, ho]⟩
    · exact ⟨d, h.id_eq ▸ definition?_push_new h, ho⟩

/-- An arena grows to an arena. -/
theorem Arena.push (hp : p.Arena) (h : p.Fits d) : (p.push d).Arena where
  id_eq {i e} he := by
    rcases definition?_push_cases h he with ⟨rfl, rfl⟩ | ⟨e, hold, rfl⟩
    · exact h.id_eq
    · rw [id_noted, hp.id_eq hold]
  memberId_eq {i e j m} he hm := by
    rcases definition?_push_cases h he with ⟨rfl, rfl⟩ | ⟨e, hold, rfl⟩
    · exact h.memberId_eq hm
    · exact hp.memberId_eq hold (members_noted d e i ▸ hm)
  outer_lt {i e o} he ho := by
    rcases definition?_push_cases h he with ⟨rfl, rfl⟩ | ⟨e, hold, rfl⟩
    · exact h.outer_lt ho
    · exact hp.outer_lt hold (declaringType_noted d e i ▸ ho)
  ns_eq {i e o e'} he ho he' := by
    obtain ⟨e₁, he₁⟩ := exists_definition? (hp.outer_lt_size_push h he ho)
    have heq : e' = noted d e₁ o := Option.some.inj (he'.symm.trans (definition?_push_old h he₁))
    subst heq
    rcases definition?_push_cases h he with ⟨rfl, rfl⟩ | ⟨e, hold, rfl⟩
    · obtain ⟨e₂, he₂, hns⟩ := h.outer ho
      have hsame : e₁ = e₂ := Option.some.inj (he₁.symm.trans he₂)
      rw [ns_noted, hsame, hns]
    · rw [ns_noted, ns_noted]
      exact hp.ns_eq hold (declaringType_noted d e i ▸ ho) he₁
  nested_sorted {o e} he := by
    rcases definition?_push_cases h he with ⟨rfl, rfl⟩ | ⟨e, hold, rfl⟩
    · rw [h.nested_eq]
      exact .nil
    · exact hp.nested_noted_sorted h hold
  mem_nested {o e i} he := by
    rcases definition?_push_cases h he with ⟨rfl, rfl⟩ | ⟨e, hold, rfl⟩
    · -- nothing is nested in the new type, since links lead to old types
      rw [h.nested_eq]
      refine ⟨fun hi => absurd hi List.not_mem_nil, ?_⟩
      rintro ⟨e', he', ho⟩
      exact absurd (hp.outer_lt_size_push h he' ho) (Nat.lt_irrefl _)
    · rw [mem_nested_noted, hp.mem_nested hold, exists_definition?_push_iff h]

/-- The definition without its nested types. -/
def bare (d : TypeDefinition) : TypeDefinition := { d with nestedTypes := [] }

theorem keepsNames_bare : KeepsNames bare :=
  ⟨fun _ => rfl, fun _ => rfl, fun _ => rfl, fun _ => rfl⟩

/-- Every definition of the one project is in the other, possibly with more nested types. -/
def Extends (p q : Project) : Prop :=
  ∀ i d, p.definition? i = some d →
    ∃ ids, q.definition? i = some { d with nestedTypes := d.nestedTypes ++ ids }

theorem extends_push (h : p.Fits d) : p.Extends (p.push d) := by
  intro i e he
  rw [definition?_push_old h he]
  rw [noted]
  split
  · exact ⟨[d.id], rfl⟩
  · exact ⟨[], by simp⟩

namespace Extends

theorem refl (p : Project) : p.Extends p := fun _ _ hd => ⟨[], by simpa using hd⟩

theorem trans {r : Project} (h : p.Extends q) (h' : q.Extends r) : p.Extends r := by
  intro i d hd
  obtain ⟨ids, hq⟩ := h i d hd
  obtain ⟨ids', hr⟩ := h' i _ hq
  exact ⟨ids ++ ids', by simpa using hr⟩

/-- But for nested types, the definitions are the same. -/
theorem within (h : p.Extends q) : p.Within bare q := by
  intro i d hd
  obtain ⟨ids, hq⟩ := h i d hd
  exact ⟨_, hq, rfl⟩

theorem key_eq (h : p.Extends q) (hp : p.Arena) (hq : q.Arena)
    (hd : ∀ o, d.declaringType = some o → o.index < p.size) : q.key d = p.key d :=
  h.within.key_eq keepsNames_bare hp hq rfl hd

end Extends

/-- The one project becomes the other by adding the definitions in their order. -/
inductive Pushes : Project → List TypeDefinition → Project → Prop where
  | nil (p : Project) : Pushes p [] p
  | cons {p q : Project} {d : TypeDefinition} {ds : List TypeDefinition} :
    p.Fits d → Pushes (p.push d) ds q → Pushes p (d :: ds) q

namespace Pushes

variable {ds : List TypeDefinition}

theorem append {r : Project} {ds' : List TypeDefinition} (h : Pushes p ds q)
    (h' : Pushes q ds' r) : Pushes p (ds ++ ds') r := by
  induction h with
  | nil p => exact h'
  | cons hd _ ih => exact .cons hd (ih h')

theorem arena (h : Pushes p ds q) (hp : p.Arena) : q.Arena := by
  induction h with
  | nil p => exact hp
  | cons hd _ ih => exact ih (hp.push hd)

theorem extension (h : Pushes p ds q) : p.Extends q := by
  induction h with
  | nil p => exact .refl p
  | cons hd _ ih => exact (extends_push hd).trans ih

theorem size_eq (h : Pushes p ds q) : q.size = p.size + ds.length := by
  induction h with
  | nil p => rfl
  | cons _ _ ih =>
    rw [ih, size_push, List.length_cons]
    omega

theorem id_eq (h : Pushes p ds q) {k : Nat} {e : TypeDefinition} (hk : ds[k]? = some e) :
    e.id = ⟨p.size + k⟩ := by
  induction h generalizing k with
  | nil p => simp at hk
  | cons hd _ ih =>
    cases k with
    | zero =>
      rw [List.getElem?_cons_zero, Option.some.injEq] at hk
      exact hk ▸ hd.id_eq
    | succ k =>
      rw [ih (by simpa using hk), size_push]
      congr 1
      omega

/-- Of a definition that was there before, only the list of nested types grows. -/
theorem definition?_old (h : Pushes p ds q) {i : TypeId} {e : TypeDefinition}
    (he : p.definition? i = some e) :
    q.definition? i = some { e with
      nestedTypes := e.nestedTypes ++ (ds.filter (·.declaringType = some i)).map (·.id) } := by
  induction h generalizing e with
  | nil p => simpa using he
  | @cons p q d ds hd _ ih =>
    rw [ih (definition?_push_old hd he)]
    by_cases ho : d.declaringType = some i
    · simp [noted, ho, TypeDefinition.withNested]
    · simp [noted, ho]

/-- The new definitions are there, with the types nested in them. -/
theorem definition?_new (h : Pushes p ds q) {e : TypeDefinition} (he : e ∈ ds) :
    ∃ ids, q.definition? e.id = some { e with nestedTypes := ids } := by
  induction h with
  | nil p => cases he
  | @cons p q d ds hd hds ih =>
    rcases List.mem_cons.1 he with rfl | he
    · have hnew := definition?_old hds (definition?_push_new hd)
      rw [← hd.id_eq] at hnew
      exact ⟨_, hnew⟩
    · exact ih he

theorem definition?_cases (h : Pushes p ds q) {i : TypeId} {e : TypeDefinition}
    (he : q.definition? i = some e) :
    (∃ e', p.definition? i = some e' ∧ bare e = bare e') ∨
      ∃ d ∈ ds, d.id = i ∧ bare e = bare d := by
  induction h with
  | nil p => exact .inl ⟨e, he, rfl⟩
  | @cons p q d ds hd hds ih =>
    rcases ih he with ⟨e₁, he₁, hb⟩ | ⟨d', hd', hid, hb⟩
    · rcases definition?_push_cases hd he₁ with ⟨rfl, rfl⟩ | ⟨e', he', rfl⟩
      · exact .inr ⟨e₁, List.mem_cons_self, hd.id_eq, hb⟩
      · exact .inl ⟨e', he', hb.trans (by rw [noted]; split <;> rfl)⟩
    · exact .inr ⟨d', List.mem_cons_of_mem d hd', hid, hb⟩

end Pushes

end Project

end QuickInfo
