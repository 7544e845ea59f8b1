import QuickInfo.Proofs.Project.Insertion

/-!
# Validation of a document

The check of a document goes through its types in the order of their arrival. It passes if every
type passes for itself and the keys are new to the project and differ from each other.
-/
namespace QuickInfo

/-- The names of a type and of its members are names that they may have. -/
def TypeDocument.HasValidNames (d : TypeDocument) : Prop :=
  typeNameFault? d.name = none ∧ ∀ m ∈ d.members, m.name ≠ ""

instance (d : TypeDocument) : Decidable d.HasValidNames :=
  inferInstanceAs (Decidable (_ ∧ _))

namespace Project

open TypeDocument

/-- Checks types one after another; the result are the keys of all of them before the `pending`
ones. -/
def checkAll (p : Project) : List TypeKey → List Arrival → Except AddError (List TypeKey)
  | pending, [] => .ok pending
  | pending, a :: as =>
    match p.refusal? pending a.key a.document with
    | some e => .error e
    | none => p.checkAll (a.key :: pending) as

variable {p : Project}

theorem checkAll_append (pending : List TypeKey) (as bs : List Arrival) :
    p.checkAll pending (as ++ bs) = (p.checkAll pending as).bind fun keys => p.checkAll keys bs := by
  induction as generalizing pending with
  | nil => rfl
  | cons a as ih =>
    simp only [List.cons_append, checkAll]
    cases p.refusal? pending a.key a.document with
    | some e => rfl
    | none => exact ih _

mutual

/-- The types of a document are checked in the order of their arrival. -/
theorem validate_eq_checkAll (s : Scope) (outer : Option TypeId) (n : Nat) :
    ∀ (pending : List TypeKey) (d : TypeDocument),
      p.validate s pending d = p.checkAll pending (d.arrivals s outer n)
  | pending, ⟨header, ownNs, members, nested⟩ => by
    rw [validate, arrivals, checkAll]
    cases p.refusal? pending (s.keyOf header) ⟨header, ownNs, members, nested⟩ with
    | some e => rfl
    | none => exact validateAll_eq_checkAll _ _ _ _ nested

theorem validateAll_eq_checkAll (s : Scope) (outer : Option TypeId) (n : Nat) :
    ∀ (pending : List TypeKey) (ds : List TypeDocument),
      p.validateAll s pending ds = p.checkAll pending (arrivalsAll s outer n ds)
  | pending, [] => rfl
  | pending, d :: ds => by
    rw [validateAll, arrivalsAll, checkAll_append, validate_eq_checkAll s outer n pending d]
    cases p.checkAll pending (d.arrivals s outer n) with
    | error e => rfl
    | ok keys => exact validateAll_eq_checkAll s outer _ keys ds

end

/-- The keys of the types are not in use and differ from each other. -/
def Distinct (p : Project) (pending : List TypeKey) (as : List Arrival) : Prop :=
  (∀ a ∈ as, p.find? a.key = none ∧ a.key ∉ pending) ∧ (as.map (·.key)).Nodup

theorem distinct_nil (pending : List TypeKey) : p.Distinct pending [] :=
  ⟨by simp, List.nodup_nil⟩

theorem distinct_cons_iff {pending : List TypeKey} {a : Arrival} {as : List Arrival} :
    p.Distinct pending (a :: as) ↔
      (p.find? a.key = none ∧ a.key ∉ pending) ∧ p.Distinct (a.key :: pending) as := by
  rw [Distinct, List.forall_mem_cons, Distinct]
  simp only [List.map_cons, List.nodup_cons, List.mem_map, List.mem_cons, not_or, not_exists,
    not_and]
  constructor
  · rintro ⟨⟨ha, has⟩, hne, hnd⟩
    exact ⟨ha, fun b hb => ⟨(has b hb).1, fun he => hne b hb he, (has b hb).2⟩, hnd⟩
  · rintro ⟨ha, has, hnd⟩
    exact ⟨⟨ha, fun b hb => ⟨(has b hb).1, (has b hb).2.2⟩⟩, fun b hb => (has b hb).2.1, hnd⟩

/-- What passes the check. -/
theorem checkAll_eq_ok_iff {pending keys : List TypeKey} {as : List Arrival} :
    p.checkAll pending as = .ok keys ↔
      (∀ a ∈ as, a.document.HasValidNames) ∧ p.Distinct pending as ∧
        keys = (as.map (·.key)).reverse ++ pending := by
  induction as generalizing pending with
  | nil => simp [checkAll, distinct_nil, eq_comm]
  | cons a as ih =>
    rw [checkAll, distinct_cons_iff, List.forall_mem_cons]
    cases hr : p.refusal? pending a.key a.document with
    | some e =>
      have hn : ¬(a.document.HasValidNames ∧ p.find? a.key = none ∧ a.key ∉ pending) := by
        rintro ⟨⟨hname, hmembers⟩, hkey⟩
        rw [refusal?_eq_none_iff.2 ⟨hname, hkey, hmembers⟩] at hr
        cases hr
      simp only [reduceCtorEq, false_iff]
      rintro ⟨⟨ha, -⟩, ⟨hkey, -⟩, -⟩
      exact hn ⟨ha, hkey⟩
    | none =>
      obtain ⟨hname, hkey, hmembers⟩ := refusal?_eq_none_iff.1 hr
      have ha : a.document.HasValidNames := ⟨hname, hmembers⟩
      simp only [ih, ha, hkey, List.map_cons, List.reverse_cons, List.append_assoc,
        List.singleton_append, true_and, not_false_eq_true]

/-- With valid names only, the one thing to refuse a document for is a key in use. -/
theorem checkAll_eq_duplicate {pending : List TypeKey} {as : List Arrival}
    (hnames : ∀ a ∈ as, a.document.HasValidNames) (h : ¬p.Distinct pending as) :
    ∃ a ∈ as, p.checkAll pending as = .error (.duplicateType a.key.name) := by
  induction as generalizing pending with
  | nil => exact absurd (distinct_nil pending) h
  | cons a as ih =>
    obtain ⟨ha, has⟩ := List.forall_mem_cons.1 hnames
    rw [distinct_cons_iff] at h
    by_cases hkey : p.find? a.key = none ∧ a.key ∉ pending
    · obtain ⟨b, hb, he⟩ := ih has fun hd => h ⟨hkey, hd⟩
      refine ⟨b, List.mem_cons_of_mem a hb, ?_⟩
      rw [checkAll, refusal?_eq_none_iff.2 ⟨ha.1, hkey, ha.2⟩]
      exact he
    · refine ⟨a, List.mem_cons_self, ?_⟩
      have hused : (p.find? a.key).isSome ∨ a.key ∈ pending := by
        by_cases hf : p.find? a.key = none
        · exact .inr (by simpa [hf] using hkey)
        · exact .inl (Option.isSome_iff_ne_none.2 hf)
      rw [checkAll]
      simp only [refusal?, ha.1, hused, if_true]

end Project

end QuickInfo
