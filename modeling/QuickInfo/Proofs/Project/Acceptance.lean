import QuickInfo.Proofs.Project.Layout
import QuickInfo.Proofs.Project.Pieces

/-!
# Which snapshots are accepted

The types of a snapshot are added one after another, each checked against the project as it is then.
That is one check of all of them in the order of their arrival, so the order decides at most which
type is refused.
-/
namespace QuickInfo.Project

variable {p : Project} {d d' : AssemblyDocument} {c : AddError}

/-- The types of documents that are not nested. -/
def arrivalsEach (ds : List TypeDocument) : List Arrival := ds.flatMap fun d => arrivalsAt d ⟨0⟩

/-- Documents that are added one after another are checked like one list of types. -/
theorem WellFormed.addTypes_eq_error_iff (hp : p.WellFormed) (ds : List TypeDocument) :
    (p.perform (addTypes ds)).1 = .error c ↔ p.checkAll [] (arrivalsEach ds) = .error c := by
  induction ds generalizing p with
  | nil => simp [addTypes, arrivalsEach, checkAll]
  | cons d ds ih =>
    have hs : p.scope d none = .ok ⟨d.ns, none⟩ := rfl
    have hcheck : p.validate ⟨d.ns, none⟩ [] d = p.checkAll [] (arrivalsAt d ⟨0⟩) :=
      validate_eq_checkAll _ none 0 [] d
    rw [addTypes, perform_bind, arrivalsEach, List.flatMap_cons, checkAll_append, ← hcheck]
    cases hv : p.validate ⟨d.ns, none⟩ [] d with
    | error c' =>
      rw [perform_addType_of_error hs hv]
      simp only [Except.bind, Except.error.injEq]
    | ok pending =>
      have htaken := hp.taken_insert_iff hs hv
      rw [perform_addType_of_ok hs hv]
      exact (ih (hp.insert hs hv)).trans (checkAll_eq_error_congr htaken).symm

theorem ofDocument_eq_error_iff :
    ofDocument d = .error c ↔ (∅ : Project).checkAll [] (arrivalsEach d.types) = .error c := by
  rw [← wellFormed_empty.addTypes_eq_error_iff, ofDocument]
  rcases (∅ : Project).perform (addTypes d.types) with ⟨c' | u, q⟩ <;> simp

theorem exists_ok_iff {ε α : Type} {x : Except ε α} : (∃ a, x = .ok a) ↔ ∀ c, x ≠ .error c := by
  cases x <;> simp

/-- A snapshot is accepted if its names are valid and no two of its types have the same key. -/
theorem exists_ofDocument_iff :
    (∃ p, ofDocument d = .ok p) ↔ (∀ a ∈ arrivalsEach d.types, a.document.HasValidNames) ∧
      ((arrivalsEach d.types).map (·.key)).Nodup := by
  have hdistinct : (∅ : Project).Distinct [] (arrivalsEach d.types) ↔
      ((arrivalsEach d.types).map (·.key)).Nodup := by simp [Distinct]
  have hcheck : (∃ p, ofDocument d = .ok p) ↔
      ∃ keys, (∅ : Project).checkAll [] (arrivalsEach d.types) = .ok keys := by
    rw [exists_ok_iff, exists_ok_iff]
    exact forall_congr' fun c => not_congr ofDocument_eq_error_iff
  rw [hcheck, ← hdistinct]
  constructor
  · rintro ⟨keys, hkeys⟩
    obtain ⟨hnames, hnew, -⟩ := checkAll_eq_ok_iff.1 hkeys
    exact ⟨hnames, hnew⟩
  · rintro ⟨hnames, hnew⟩
    exact ⟨_, checkAll_eq_ok_iff.2 ⟨hnames, hnew, rfl⟩⟩

/-- Whether a snapshot is accepted does not depend on the order of its types. -/
theorem exists_ofDocument_perm (h : d.types.Perm d'.types) :
    (∃ p, ofDocument d = .ok p) ↔ ∃ q, ofDocument d' = .ok q := by
  have harrivals : (arrivalsEach d.types).Perm (arrivalsEach d'.types) := h.flatMap_right _
  rw [exists_ofDocument_iff, exists_ofDocument_iff, (harrivals.map _).nodup_iff]
  simp only [harrivals.mem_iff]

end QuickInfo.Project
