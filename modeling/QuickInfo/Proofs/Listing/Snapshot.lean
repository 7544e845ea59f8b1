import QuickInfo.Proofs.Listing.Entities
import QuickInfo.Proofs.Project.Layout
import QuickInfo.Proofs.Project.Pieces

/-!
# The listing of a snapshot

The listing goes along the nesting, but for a snapshot it has the types in the order of their
identifiers, each with its members after it.
-/
namespace QuickInfo

variable {p : Project}

/-- The listing of a snapshot has the types in the order of their identifiers, each followed by its
members, and is made of one line for each of these entities. A type is indented by two spaces for
each type that encloses it, and a member by two more. -/
theorem snapshot_listing {d : AssemblyDocument} (h : Project.ofDocument d = .ok p) :
    Listing.entities p = p.ids.flatMap p.entitiesOf ∧
      (∀ {i t}, p.definition? i = some t →
        ∃ outers, p.Chain t.declaringType outers ∧ p.depth i = outers.length) ∧
      ∀ {f text}, listing f p none = .ok text ↔ ∃ texts : Entity → String,
        (∀ x ∈ p.ids.flatMap p.entitiesOf, entityText f p x = .ok (texts x)) ∧
        text = String.join ((p.ids.flatMap p.entitiesOf).map fun x =>
          String.join (List.replicate (p.nesting x) "  ") ++ texts x ++ "\n") := by
  have hlaid := Project.laidOut_of_ofDocument h
  have hentities : Listing.entities p = p.ids.flatMap p.entitiesOf := by
    rw [hlaid.arena.entities_eq, hlaid.walk_eq_ids]
  refine ⟨hentities, fun hd => ?_, fun {f text} => ?_⟩
  · obtain ⟨outers, houters⟩ := hlaid.arena.exists_chain_outward hd
    exact ⟨outers, houters, hlaid.arena.depth_eq_length hd houters⟩
  · rw [← hentities]
    exact hlaid.arena.listing_none_eq_ok_iff

/-- Two documents with types nested in them, one of them two levels deep. -/
def shopSnapshot : AssemblyDocument where
  types := [Project.panelDocument "Corner", Project.outerDocument ["T"]]

def shopProject : Project := (Project.ofDocument shopSnapshot).toOption.getD ∅

theorem eq_ok_of_isOk {ε α : Type} {x : Except ε α} (h : x.isOk) (a : α) :
    x = .ok (x.toOption.getD a) := by
  cases x with
  | error c => cases h
  | ok b => rfl

theorem ofDocument_shop : Project.ofDocument shopSnapshot = .ok shopProject :=
  eq_ok_of_isOk (by decide +kernel) ∅

/-- The listing of six types in the order of their identifiers, with its text. -/
theorem snapshot_listing_shop :
    Project.ofDocument shopSnapshot = .ok shopProject ∧ shopProject.size = 6 ∧
      Listing.entities shopProject = [.type ⟨0⟩, .type ⟨1⟩, .type ⟨2⟩, .type ⟨3⟩,
        .member ⟨⟨3⟩, 0⟩, .type ⟨4⟩, .member ⟨⟨4⟩, 0⟩, .type ⟨5⟩] ∧
      (∃ texts : Entity → String,
        (∀ x ∈ shopProject.ids.flatMap shopProject.entitiesOf,
          entityText .everything shopProject x = .ok (texts x)) ∧
        listing .everything shopProject none =
          .ok (String.join ((shopProject.ids.flatMap shopProject.entitiesOf).map fun x =>
            String.join (List.replicate (shopProject.nesting x) "  ") ++ texts x ++ "\n"))) ∧
      listing .everything shopProject none = .ok (String.join
        ["class Panel\n",
         "  struct Panel.Corner\n",
         "    enum Panel.Corner.Side\n",
         "  struct Panel.Edge\n",
         "    void Panel.Edge.Width\n",
         "class Acme.Outer<T>\n",
         "  void Acme.Outer<T>.Run()\n",
         "  struct Outer<T>.Inner\n"]) := by
  obtain ⟨hentities, -, hlisting⟩ := snapshot_listing ofDocument_shop
  have htext := eq_ok_of_isOk (x := listing .everything shopProject none) (by decide +kernel) ""
  obtain ⟨texts, htexts, heq⟩ := hlisting.1 htext
  exact ⟨ofDocument_shop, by decide +kernel, hentities.trans (by decide +kernel),
    ⟨texts, htexts, heq ▸ htext⟩, by decide +kernel⟩

end QuickInfo
