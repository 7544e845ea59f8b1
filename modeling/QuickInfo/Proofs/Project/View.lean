import QuickInfo.Proofs.Project.Links

/-!
# Views of a project

A view of type definitions leaves out, or replaces, parts that names are not made of. If the types of
a project stand at their places in another project and look the same in the view, they have the same
names and declare the same types there.
-/
namespace QuickInfo.Project

/-- The view keeps what names and declared types are made of. -/
structure KeepsNames (g : TypeDefinition → TypeDefinition) : Prop where
  declaringType_eq : ∀ d, (g d).declaringType = d.declaringType
  ns_eq : ∀ d, (g d).ns = d.ns
  name_eq : ∀ d, (g d).name = d.name
  ownArguments_eq : ∀ d, (g d).ownArguments = d.ownArguments

/-- Every type of the one project stands at its place in the other one and looks the same there. -/
def Within (g : TypeDefinition → TypeDefinition) (p q : Project) : Prop :=
  ∀ i d, p.definition? i = some d → ∃ e, q.definition? i = some e ∧ g e = g d

theorem within_of_map_eq {p q : Project} {g : TypeDefinition → TypeDefinition}
    (h : p.types.toList.map g = q.types.toList.map g) : p.Within g q := by
  intro i d hd
  have hi : (q.types.toList.map g)[i.index]? = some (g d) := by
    rw [← h, List.getElem?_map, Array.getElem?_toList]
    exact congrArg (Option.map g) hd
  rw [List.getElem?_map, Array.getElem?_toList, Option.map_eq_some_iff] at hi
  exact hi

/-- What looks the same has the same parts, as far as the view keeps them. -/
theorem part_eq {g : TypeDefinition → TypeDefinition} {α : Type} (part : TypeDefinition → α)
    (hpart : ∀ d, part (g d) = part d) {d e : TypeDefinition} (h : g e = g d) : part e = part d :=
  calc part e = part (g e) := (hpart e).symm
    _ = part (g d) := congrArg part h
    _ = part d := hpart d

namespace KeepsNames

variable {g : TypeDefinition → TypeDefinition} (hg : KeepsNames g)

include hg

theorem arity_eq (d : TypeDefinition) : (g d).arity = d.arity := by
  have h := congrArg List.length (hg.ownArguments_eq d)
  simpa only [TypeHeader.ownArguments, List.length_map, TypeHeader.arity] using h

theorem nestIn_map (d : TypeDefinition) (ds : List TypeDefinition) :
    nestIn (g d) (ds.map g) = nestIn d ds := by
  induction ds generalizing d with
  | nil => simp only [List.map_nil, nestIn, hg.ns_eq, hg.name_eq, hg.ownArguments_eq]
  | cons o ds ih => simp only [List.map_cons, nestIn, ih, hg.name_eq, hg.ownArguments_eq]

end KeepsNames

namespace Within

variable {p q : Project} {g : TypeDefinition → TypeDefinition} (hg : KeepsNames g)
  (h : p.Within g q)

include hg h

/-- The types outward from a link look the same. -/
theorem chain {link : Option TypeId} {ds : List TypeDefinition} (hc : p.Chain link ds) :
    ∃ es, q.Chain link es ∧ es.map g = ds.map g := by
  induction hc with
  | nil => exact ⟨[], .nil, rfl⟩
  | @cons id d ds hd _ ih =>
    obtain ⟨e, he, heq⟩ := h _ d hd
    obtain ⟨es, hes, hmap⟩ := ih
    have hlink : e.declaringType = d.declaringType := part_eq (·.declaringType) hg.declaringType_eq heq
    refine ⟨e :: es, .cons he (hlink ▸ hes), ?_⟩
    rw [List.map_cons, List.map_cons, heq, hmap]

/-- The types outward from a type that looks the same look the same. -/
theorem chain_outward {d e : TypeDefinition} (heq : g e = g d) {ds : List TypeDefinition}
    (hc : p.Chain d.declaringType ds) : ∃ es, q.Chain e.declaringType es ∧ es.map g = ds.map g := by
  have hlink : e.declaringType = d.declaringType := part_eq (·.declaringType) hg.declaringType_eq heq
  rw [hlink]
  exact h.chain hg hc

variable (hp : p.Arena) (hq : q.Arena)

include hp hq

theorem qualifiedName_eq {d e : TypeDefinition} (heq : g e = g d)
    (hd : ∀ o, d.declaringType = some o → o.index < p.size) :
    q.qualifiedName e = p.qualifiedName d := by
  obtain ⟨ds, hds⟩ := hp.exists_chain_of_link hd
  obtain ⟨es, hes, hmap⟩ := h.chain_outward hg heq hds
  have hname : ∀ l : List TypeDefinition, (l.map g).map (fun o => o.name) = l.map fun o => o.name := by
    intro l
    rw [List.map_map]
    exact List.map_congr_left fun o _ => hg.name_eq o
  have hnames : es.map (fun o => o.name) = ds.map fun o => o.name := by
    rw [← hname es, hmap, hname ds]
  rw [hq.qualifiedName_eq hes, hp.qualifiedName_eq hds, List.map_reverse, List.map_reverse,
    hnames, part_eq (·.ns) hg.ns_eq heq, part_eq (·.name) hg.name_eq heq]

theorem key_eq {d e : TypeDefinition} (heq : g e = g d)
    (hd : ∀ o, d.declaringType = some o → o.index < p.size) : q.key e = p.key d := by
  rw [key, key, reflectionName, reflectionName, h.qualifiedName_eq hg hp hq heq hd,
    part_eq (·.arity) hg.arity_eq heq]

/-- A type declares the same type in both projects. -/
theorem definitionType?_eq {i : TypeId} (hi : i.index < p.size) :
    q.definitionType? i = p.definitionType? i := by
  obtain ⟨d, hd⟩ := exists_definition? hi
  obtain ⟨e, he, heq⟩ := h _ d hd
  obtain ⟨ds, hds⟩ := hp.exists_chain_outward hd
  obtain ⟨es, hes, hmap⟩ := h.chain_outward hg heq hds
  rw [hp.definitionType?_eq hd hds, hq.definitionType?_eq he hes, ← hg.nestIn_map d,
    ← hg.nestIn_map e, heq, hmap]

end Within

end QuickInfo.Project
