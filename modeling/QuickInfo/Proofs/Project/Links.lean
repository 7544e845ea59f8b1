import QuickInfo.Project.Resolve
import QuickInfo.Proofs.Project.Arena

/-!
# Links to enclosing types

Every link leads to a smaller identifier, so a recursion along the links ends. Enclosing types,
written names and declared types are computed with a bound on the number of links; they are what the
recursion without a bound gives.
-/
namespace QuickInfo.Project

/-- The second type is linked to the first one as the type that encloses it. -/
def Encloses (p : Project) (o i : TypeId) : Prop :=
  ∃ d, p.definition? i = some d ∧ d.declaringType = some o

/-- The recursion along the links ends, and each of its results is made from that for the enclosing
type. -/
structure Unwinds (p : Project) : Prop where
  wellFounded : WellFounded p.Encloses
  topLevel : ∀ {i d}, p.definition? i = some d → d.declaringType = none →
    p.enclosing d = .ok [] ∧ p.reflectionName d = QualifiedName.qualify d.ns d.name ∧
      p.definitionType? i = some (.topLevel d.ns d.name d.ownArguments)
  nested : ∀ {i d o}, p.definition? i = some d → d.declaringType = some o →
    ∃ e outers t, p.definition? o = some e ∧
      p.enclosing e = .ok outers ∧ p.enclosing d = .ok (e :: outers) ∧
      p.reflectionName d = p.reflectionName e ++ "+" ++ d.name ∧
      p.definitionType? o = some t ∧ p.definitionType? i = some (.nested t d.name d.ownArguments)

namespace Arena

variable {p : Project} (hp : p.Arena)

include hp

theorem wellFounded_encloses : WellFounded p.Encloses := by
  refine Subrelation.wf (r := fun o i => o.index < i.index) ?_ (measure TypeId.index).wf
  rintro o i ⟨d, hd, ho⟩
  exact hp.outer_lt hd ho

theorem definitionType?_eq {i : TypeId} {d : TypeDefinition} {ds : List TypeDefinition}
    (hd : p.definition? i = some d) (hds : p.Chain d.declaringType ds) :
    p.definitionType? i = some (nestIn d ds) := by
  simp [definitionType?, hd, hp.enclosing_eq hds]

theorem unwinds : p.Unwinds where
  wellFounded := hp.wellFounded_encloses
  topLevel {i d} hd ho := by
    have hds : p.Chain d.declaringType [] := ho ▸ .nil
    exact ⟨hp.enclosing_eq hds, p.reflectionName_topLevel ho, hp.definitionType?_eq hd hds⟩
  nested {i d o} hd ho := by
    have hlt : o.index < p.size := hp.outer_lt_size hd ho
    obtain ⟨e, he⟩ := exists_definition? hlt
    obtain ⟨ds, hds⟩ := hp.exists_chain_outward he
    have hnested : p.Chain d.declaringType (e :: ds) := ho ▸ .cons he hds
    exact ⟨e, ds, nestIn e ds, he, hp.enclosing_eq hds, hp.enclosing_eq hnested,
      hp.reflectionName_nested ho he (hp.ns_eq hd ho he), hp.definitionType?_eq he hds,
      hp.definitionType?_eq hd hnested⟩

end Arena

end QuickInfo.Project
