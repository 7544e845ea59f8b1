import QuickInfo.Proofs.Project.Duplicates

/-!
# Additions in pieces

A document can be added at once, or in pieces: the type alone first, and then the types nested in it
one after another inside it. The answers are the same, and so is the project if there is no refusal.
-/
namespace QuickInfo

/-- The type without the types nested in it. -/
def TypeDocument.bare (d : TypeDocument) : TypeDocument := { d with nestedTypes := [] }

namespace Project

/-- Adds types in their order, all of them in the same enclosing type. -/
def addAll (outer : Option TypeId) : List TypeDocument → Change AddError Unit
  | [] => return ()
  | d :: ds => do
    let _ ← addType d outer
    addAll outer ds

/-- Adds a type alone and then, one after another, the types nested in it. -/
def addPieces (d : TypeDocument) (outer : Option TypeId) : Change AddError TypeId := do
  let id ← addType d.bare outer
  addAll (some id) d.nestedTypes
  return id

/-- A key that a new type cannot have. -/
def Taken (p : Project) (pending : List TypeKey) (key : TypeKey) : Prop :=
  (p.find? key).isSome ∨ key ∈ pending

variable {p q : Project}

theorem WellFormed.taken_iff (hp : p.WellFormed) {pending : List TypeKey} {key : TypeKey} :
    p.Taken pending key ↔ key ∈ p.keys ∨ key ∈ pending := by
  rw [Taken, hp.mem_keys_iff, Option.isSome_iff_ne_none]

/-- After a document was added, the keys are taken that were pending at the end of its check. -/
theorem WellFormed.taken_insert_iff (hp : p.WellFormed) {d : TypeDocument} {outer : Option TypeId}
    {s : Scope} {keys : List TypeKey} (hs : p.scope d outer = .ok s)
    (hv : p.validate s [] d = .ok keys) (key : TypeKey) :
    p.Taken keys key ↔ (p.insert s.ns outer d).Taken [] key := by
  have hq := hp.insert hs hv
  rw [validate_eq_checkAll s outer p.size, checkAll_eq_ok_iff] at hv
  obtain ⟨-, -, rfl⟩ := hv
  rw [hp.taken_iff, hq.taken_iff, hp.keys_insert hs]
  simp only [List.append_nil, List.mem_reverse, List.mem_append, List.not_mem_nil, or_false]

/-- A check looks at which keys are taken, not at whether their types are there or pending. -/
theorem checkAll_eq_error_congr {pending pending' : List TypeKey}
    (h : ∀ key, p.Taken pending key ↔ q.Taken pending' key) {as : List Arrival} {c : AddError} :
    p.checkAll pending as = .error c ↔ q.checkAll pending' as = .error c := by
  induction as generalizing pending pending' with
  | nil => simp [checkAll]
  | cons a as ih =>
    have hrefusal : p.refusal? pending a.key a.document = q.refusal? pending' a.key a.document := by
      have hkey := h a.key
      simp only [Taken] at hkey
      simp only [refusal?, hkey]
    rw [checkAll, checkAll, hrefusal]
    cases q.refusal? pending' a.key a.document with
    | some e => rfl
    | none =>
      refine ih fun key => ?_
      have hkey := h key
      simp only [Taken, List.mem_cons] at hkey ⊢
      rw [or_left_comm, hkey, or_left_comm]

theorem validateAll_eq_error_congr {pending pending' : List TypeKey}
    (h : ∀ key, p.Taken pending key ↔ q.Taken pending' key) {s : Scope} {ds : List TypeDocument}
    {c : AddError} :
    p.validateAll s pending ds = .error c ↔ q.validateAll s pending' ds = .error c := by
  rw [validateAll_eq_checkAll s none 0, validateAll_eq_checkAll s none 0]
  exact checkAll_eq_error_congr h

theorem scope_some_eq_ok_iff {d : TypeDocument} {o : TypeId} {s : Scope} :
    p.scope d (some o) = .ok s ↔
      ∃ e, p.definition? o = some e ∧ s = ⟨e.ns, some (p.reflectionName e)⟩ := by
  cases ho : p.definition? o with
  | none => simp [scope, ho]
  | some e => simp [scope, ho, eq_comm]

/-- What is declared in a type of a project is declared in the same scope when the project has
grown. -/
theorem Extends.scope_eq_ok (h : p.Extends q) (hp : p.Arena) (hq : q.Arena) {d e : TypeDocument}
    {o : TypeId} {s : Scope} (hs : p.scope d (some o) = .ok s) : q.scope e (some o) = .ok s := by
  obtain ⟨t, ht, rfl⟩ := scope_some_eq_ok_iff.1 hs
  obtain ⟨ids, hqt⟩ := h o t ht
  have hname : q.reflectionName t = p.reflectionName t :=
    congrArg TypeKey.name (h.key_eq hp hq fun _ ho => hp.outer_lt_size ht ho)
  refine scope_some_eq_ok_iff.2 ⟨_, hqt, ?_⟩
  rw [← hname]
  rfl

section Steps

variable {d : TypeDocument} {ds : List TypeDocument} {outer : Option TypeId} {c : AddError}

theorem validateAll_of_error {s : Scope} {pending : List TypeKey}
    (hv : p.validate s pending d = .error c) : p.validateAll s pending (d :: ds) = .error c := by
  rw [validateAll, hv]
  rfl

theorem validateAll_of_ok {s : Scope} {pending keys : List TypeKey}
    (hv : p.validate s pending d = .ok keys) :
    p.validateAll s pending (d :: ds) = p.validateAll s keys ds := by
  rw [validateAll, hv]
  rfl

theorem perform_addType_of_scope (hs : p.scope d outer = .error c) :
    p.perform (addType d outer) = (.error c, p) := by
  rw [perform_addType, hs]

theorem perform_addType_of_error {s : Scope} (hs : p.scope d outer = .ok s)
    (hv : p.validate s [] d = .error c) : p.perform (addType d outer) = (.error c, p) := by
  rw [perform_addType, hs]
  simp only [hv]

theorem perform_addType_of_ok {s : Scope} {keys : List TypeKey} (hs : p.scope d outer = .ok s)
    (hv : p.validate s [] d = .ok keys) :
    p.perform (addType d outer) = (.ok ⟨p.size⟩, p.insert s.ns outer d) := by
  rw [perform_addType, hs]
  simp only [hv]

theorem perform_addAll_of_error (h : p.perform (addType d outer) = (.error c, q)) :
    p.perform (addAll outer (d :: ds)) = (.error c, q) := by
  rw [addAll, perform_bind, h]

theorem perform_addAll_of_ok {i : TypeId} (h : p.perform (addType d outer) = (.ok i, q)) :
    p.perform (addAll outer (d :: ds)) = q.perform (addAll outer ds) := by
  rw [addAll, perform_bind, h]

theorem perform_addPieces_of_error (h : p.perform (addType d.bare outer) = (.error c, q)) :
    p.perform (addPieces d outer) = (.error c, q) := by
  rw [addPieces, perform_bind, h]

theorem perform_addPieces_of_ok {i : TypeId} {r : Project} {a : Except AddError Unit}
    (h : p.perform (addType d.bare outer) = (.ok i, q))
    (h' : q.perform (addAll (some i) d.nestedTypes) = (a, r)) :
    p.perform (addPieces d outer) = (a.map fun _ => i, r) := by
  rw [addPieces, perform_bind, h]
  simp only [perform_bind, h']
  cases a <;> rfl

end Steps

/-- What adding types one after another inside a type answers, compared with checking them all
first and inserting them then. -/
theorem WellFormed.perform_addAll (hp : p.WellFormed) {o : TypeId} {s : Scope}
    (hs : ∀ d, p.scope d (some o) = .ok s) (ds : List TypeDocument) :
    (∀ {c}, p.validateAll s [] ds = .error c → (p.perform (addAll (some o) ds)).1 = .error c) ∧
      ∀ {keys}, p.validateAll s [] ds = .ok keys →
        p.perform (addAll (some o) ds) = (.ok (), p.insertAll s.ns (some o) ds) := by
  induction ds generalizing p with
  | nil => exact ⟨fun h => (by cases h), fun _ => rfl⟩
  | cons d ds ih =>
    cases hv : p.validate s [] d with
    | error c =>
      rw [validateAll_of_error hv, perform_addAll_of_error (perform_addType_of_error (hs d) hv)]
      exact ⟨fun h => congrArg Except.error (Except.error.inj h), fun h => (by cases h)⟩
    | ok pending =>
      have hq := hp.insert (hs d) hv
      have htaken := hp.taken_insert_iff (hs d) hv
      have hext : p.Extends (p.insert s.ns (some o) d) :=
        (pushes_insert (scope_eq_ok (hs d)).1 s d).extension
      obtain ⟨hrefused, hadded⟩ := ih hq fun e => hext.scope_eq_ok hp.toArena hq.toArena (hs d)
      rw [validateAll_of_ok hv, perform_addAll_of_ok (perform_addType_of_ok (hs d) hv)]
      refine ⟨fun h => hrefused ((validateAll_eq_error_congr htaken).1 h), fun h => ?_⟩
      cases hall : (p.insert s.ns (some o) d).validateAll s [] ds with
      | error c => cases ((validateAll_eq_error_congr htaken).2 hall).symm.trans h
      | ok keys => exact hadded hall

theorem scope_bare (p : Project) (d : TypeDocument) (outer : Option TypeId) :
    p.scope d.bare outer = p.scope d outer := by
  cases outer <;> rfl

/-- The check of a document begins with that of the type alone. -/
theorem validate_eq_bind (p : Project) (s : Scope) (d : TypeDocument) :
    p.validate s [] d = (p.validate s [] d.bare).bind fun pending =>
      p.validateAll (s.inside d.name) pending d.nestedTypes := by
  obtain ⟨header, ownNs, members, nested⟩ := d
  have hsame : p.refusal? [] (s.keyOf header) ⟨header, ownNs, members, []⟩ =
    p.refusal? [] (s.keyOf header) ⟨header, ownNs, members, nested⟩ := rfl
  rw [TypeDocument.bare, validate, validate, hsame]
  cases p.refusal? [] (s.keyOf header) ⟨header, ownNs, members, nested⟩ with
  | some c => rfl
  | none =>
    simp only [validateAll]
    rfl

theorem insert_eq_insertAll (p : Project) (ns : String) (outer : Option TypeId) (d : TypeDocument) :
    p.insert ns outer d =
      (p.insert ns outer d.bare).insertAll ns (some ⟨p.size⟩) d.nestedTypes := by
  obtain ⟨header, ownNs, members, nested⟩ := d
  rw [TypeDocument.bare, insert, insert, insertAll]
  rfl

/-- A type that was added alone is where its nested types are declared. -/
theorem WellFormed.scope_insert_bare (hp : p.WellFormed) {d : TypeDocument} {outer : Option TypeId}
    {s : Scope} (hs : p.scope d.bare outer = .ok s) (e : TypeDocument) :
    (p.insert s.ns outer d.bare).scope e (some ⟨p.size⟩) = .ok (s.inside d.name) := by
  let a : Arrival := ⟨s.keyOf d.toTypeHeader, ⟨p.size⟩, outer, d.bare⟩
  have hhead : (d.bare.arrivals s outer p.size)[0]? = some a := by
    rw [TypeDocument.bare, TypeDocument.arrivals]
    rfl
  obtain ⟨ids, hdef⟩ := definition?_insert_new hs hhead
  have hkey := (hp.toArena.pushes_insert hs).2 a (List.mem_of_getElem? hhead)
  have hname : (p.insert s.ns outer d.bare).reflectionName (a.definition s.ns) = s.nameOf d.name :=
    congrArg TypeKey.name hkey
  refine scope_some_eq_ok_iff.2 ⟨_, hdef, ?_⟩
  rw [Scope.inside, ← hname]
  rfl

/-- A document is refused for the same reason at once and in pieces, or it is accepted with the same
outcome. -/
def AddsAlike (p : Project) (d : TypeDocument) (outer : Option TypeId) : Prop :=
  (∃ c q, p.perform (addType d outer) = (.error c, p) ∧
      p.perform (addPieces d outer) = (.error c, q)) ∨
    ∃ i q, p.perform (addType d outer) = (.ok i, q) ∧ p.perform (addPieces d outer) = (.ok i, q)

/-- If the type alone is accepted, what is nested in it decides. -/
theorem WellFormed.addsAlike_of_bare (hp : p.WellFormed) {d : TypeDocument} {outer : Option TypeId}
    {s : Scope} {pending : List TypeKey} (hs : p.scope d outer = .ok s)
    (hv : p.validate s [] d.bare = .ok pending) : p.AddsAlike d outer := by
  have hbare : p.scope d.bare outer = .ok s := (scope_bare p d outer).trans hs
  have hadd := perform_addType_of_ok hbare hv
  have htaken := hp.taken_insert_iff hbare hv
  have hcheck : p.validate s [] d = p.validateAll (s.inside d.name) pending d.nestedTypes := by
    rw [validate_eq_bind, hv]
    rfl
  obtain ⟨hrefused, hadded⟩ :=
    (hp.insert hbare hv).perform_addAll (hp.scope_insert_bare hbare) d.nestedTypes
  cases hall : (p.insert s.ns outer d.bare).validateAll (s.inside d.name) [] d.nestedTypes with
  | error c =>
    have hvd := hcheck.trans ((validateAll_eq_error_congr htaken).2 hall)
    exact .inl ⟨c, _, perform_addType_of_error hs hvd,
      perform_addPieces_of_ok hadd (Prod.ext (hrefused hall) rfl)⟩
  | ok keys =>
    cases hvd : p.validate s [] d with
    | error c =>
      cases ((validateAll_eq_error_congr htaken).1 (hcheck.symm.trans hvd)).symm.trans hall
    | ok keys' =>
      have honce := perform_addType_of_ok hs hvd
      rw [insert_eq_insertAll] at honce
      exact .inr ⟨_, _, honce, perform_addPieces_of_ok hadd (hadded hall)⟩

theorem WellFormed.addsAlike (hp : p.WellFormed) (d : TypeDocument) (outer : Option TypeId) :
    p.AddsAlike d outer := by
  have hbare := scope_bare p d outer
  cases hs : p.scope d outer with
  | error c =>
    have hadd := perform_addType_of_scope (hbare.trans hs)
    exact .inl ⟨c, p, perform_addType_of_scope hs, perform_addPieces_of_error hadd⟩
  | ok s =>
    cases hv : p.validate s [] d.bare with
    | error c =>
      have hadd := perform_addType_of_error (hbare.trans hs) hv
      have hvd : p.validate s [] d = .error c := by
        rw [validate_eq_bind, hv]
        rfl
      exact .inl ⟨c, p, perform_addType_of_error hs hvd, perform_addPieces_of_error hadd⟩
    | ok pending => exact hp.addsAlike_of_bare hs hv

/-- The answer to adding a document in pieces is that to adding it at once, whether it is accepted
or refused, and if it is accepted the projects are the same. -/
theorem addPieces_eq_addType (h : p.Reachable) (d : TypeDocument) (outer : Option TypeId) :
    (p.perform (addPieces d outer)).1 = (p.perform (addType d outer)).1 ∧
      ∀ {i q}, p.perform (addType d outer) = (.ok i, q) ↔
        p.perform (addPieces d outer) = (.ok i, q) := by
  rcases h.wellFormed.addsAlike d outer with ⟨c, q, honce, hpieces⟩ | ⟨i, q, honce, hpieces⟩
  · rw [honce, hpieces]
    exact ⟨rfl, fun {i q} => by simp⟩
  · rw [honce, hpieces]
    exact ⟨rfl, Iff.rfl⟩

/-- A type with two types nested in it, of which the given one has a third one inside. -/
def panelDocument (inner : String) : TypeDocument where
  kind := .classType
  name := "Panel"
  nestedTypes :=
    [{ kind := .structType, name := inner, nestedTypes := [{ kind := .enumType, name := "Side" }] },
      { kind := .structType, name := "Edge", members := [{ kind := .field, name := "Width" }] }]

/-- In a nested type, a document of four types is added at once or in pieces; with the same name for
two of the types it is refused. -/
theorem addPieces_eq_addType_panel :
    (outerProject ["T"]).Reachable ∧
      (∃ q, (outerProject ["T"]).perform (addType (panelDocument "Corner") (some ⟨1⟩)) =
          (.ok ⟨2⟩, q) ∧
        (outerProject ["T"]).perform (addPieces (panelDocument "Corner") (some ⟨1⟩)) =
          (.ok ⟨2⟩, q)) ∧
      ((outerProject ["T"]).perform (addPieces (panelDocument "Edge") (some ⟨1⟩))).1 =
        .error (.duplicateType "Acme.Outer+Inner+Panel+Edge") := by
  have hr := reachable_outerProject ["T"]
  have hadded : ((outerProject ["T"]).perform (addType (panelDocument "Corner") (some ⟨1⟩))).1 =
      .ok ⟨2⟩ := by decide +kernel
  have hrefused : ((outerProject ["T"]).perform (addType (panelDocument "Edge") (some ⟨1⟩))).1 =
      .error (.duplicateType "Acme.Outer+Inner+Panel+Edge") := by decide +kernel
  have honce := Prod.ext hadded rfl
  exact ⟨hr, ⟨_, honce, (addPieces_eq_addType hr _ _).2.1 honce⟩,
    (addPieces_eq_addType hr _ _).1.trans hrefused⟩

end Project

end QuickInfo
