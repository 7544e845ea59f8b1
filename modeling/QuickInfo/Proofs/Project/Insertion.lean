import QuickInfo.Proofs.Project.Growth

/-!
# Insertion of a document

The types of a document arrive in a project one by one, each before the types nested in it. The keys
that the project gives them, looked up in the growing arena, are the keys that the document gives
them, carried along with the scope.
-/
namespace QuickInfo

/-- A type of a document on its way into a project: its key, its identifier there, and its enclosing
type. -/
structure Arrival where
  key : TypeKey
  id : TypeId
  outer : Option TypeId
  document : TypeDocument

/-- The definition of the type, without its nested types. -/
def Arrival.definition (ns : String) (a : Arrival) : TypeDefinition :=
  a.document.definition a.id ns a.outer

namespace TypeDocument

mutual

/-- The types of a document, each before the types nested in it. -/
def preorder : TypeDocument → List TypeDocument
  | ⟨header, ownNs, members, nested⟩ => ⟨header, ownNs, members, nested⟩ :: preorderAll nested

def preorderAll : List TypeDocument → List TypeDocument
  | [] => []
  | d :: ds => d.preorder ++ preorderAll ds

end

mutual

/-- The types of a document that is declared in a scope, with identifiers from `n` on. -/
def arrivals (s : Scope) (outer : Option TypeId) (n : Nat) : TypeDocument → List Arrival
  | ⟨header, ownNs, members, nested⟩ =>
    ⟨s.keyOf header, ⟨n⟩, outer, ⟨header, ownNs, members, nested⟩⟩ ::
      arrivalsAll (s.inside header.name) (some ⟨n⟩) (n + 1) nested

def arrivalsAll (s : Scope) (outer : Option TypeId) (n : Nat) : List TypeDocument → List Arrival
  | [] => []
  | d :: ds => d.arrivals s outer n ++ arrivalsAll s outer (n + d.preorder.length) ds

end

mutual

theorem document_arrivals (s : Scope) (outer : Option TypeId) (n : Nat) :
    ∀ d : TypeDocument, (d.arrivals s outer n).map (·.document) = d.preorder
  | ⟨header, ownNs, members, nested⟩ => by
    simp only [arrivals, preorder, List.map_cons]
    rw [document_arrivalsAll]

theorem document_arrivalsAll (s : Scope) (outer : Option TypeId) (n : Nat) :
    ∀ ds : List TypeDocument, (arrivalsAll s outer n ds).map (·.document) = preorderAll ds
  | [] => rfl
  | d :: ds => by
    simp only [arrivalsAll, preorderAll, List.map_append]
    rw [document_arrivals, document_arrivalsAll]

end

theorem length_arrivals (s : Scope) (outer : Option TypeId) (n : Nat) (d : TypeDocument) :
    (d.arrivals s outer n).length = d.preorder.length := by
  rw [← document_arrivals s outer n d, List.length_map]

theorem document_mem_preorder {s : Scope} {outer : Option TypeId} {n : Nat} {d : TypeDocument}
    {a : Arrival} (ha : a ∈ d.arrivals s outer n) : a.document ∈ d.preorder := by
  rw [← document_arrivals s outer n d]
  exact List.mem_map_of_mem ha

end TypeDocument

namespace Project

open TypeDocument

theorem fits_definition {p : Project} {ns : String} {outer : Option TypeId}
    (ho : ∀ o, outer = some o → ∃ e, p.definition? o = some e ∧ ns = e.ns) (d : TypeDocument) :
    p.Fits (d.definition ⟨p.size⟩ ns outer) where
  id_eq := rfl
  memberId_eq {j m} hm := by
    simp only [TypeDocument.definition, List.getElem?_mapIdx, Option.map_eq_some_iff] at hm
    obtain ⟨_, _, rfl⟩ := hm
    rfl
  nested_eq := rfl
  outer {o} h := ho o h

/-- In a new type more types can be declared. -/
theorem Fits.declares {p : Project} {d : TypeDefinition} (h : p.Fits d) :
    ∀ o, some (⟨p.size⟩ : TypeId) = some o →
      ∃ e, (p.push d).definition? o = some e ∧ d.ns = e.ns := by
  intro o ho
  obtain rfl := Option.some.inj ho
  exact ⟨d, definition?_push_new h, rfl⟩

/-- What is declared in a type of a project still is when the project has grown. -/
theorem Extends.declares {p q : Project} (h : p.Extends q) {ns : String} {outer : Option TypeId}
    (ho : ∀ o, outer = some o → ∃ e, p.definition? o = some e ∧ ns = e.ns) :
    ∀ o, outer = some o → ∃ e, q.definition? o = some e ∧ ns = e.ns := by
  intro o hout
  obtain ⟨e, he, hns⟩ := ho o hout
  obtain ⟨ids, hq⟩ := h o e he
  exact ⟨_, hq, hns⟩

mutual

/-- Insertion adds the types of a document in their order. -/
theorem pushes_insert {p : Project} {ns : String} {outer : Option TypeId}
    (ho : ∀ o, outer = some o → ∃ e, p.definition? o = some e ∧ ns = e.ns) (s : Scope) :
    ∀ d : TypeDocument,
      Pushes p ((d.arrivals s outer p.size).map (Arrival.definition ns)) (p.insert ns outer d)
  | ⟨header, ownNs, members, nested⟩ => by
    have hfits := fits_definition ho ⟨header, ownNs, members, nested⟩
    rw [arrivals, List.map_cons, insert, ← p.size_push]
    exact .cons hfits (pushes_insertAll hfits.declares (s.inside header.name) nested)

theorem pushes_insertAll {p : Project} {ns : String} {outer : Option TypeId}
    (ho : ∀ o, outer = some o → ∃ e, p.definition? o = some e ∧ ns = e.ns) (s : Scope) :
    ∀ ds : List TypeDocument, Pushes p
      ((arrivalsAll s outer p.size ds).map (Arrival.definition ns)) (p.insertAll ns outer ds)
  | [] => .nil p
  | d :: ds => by
    have hd := pushes_insert ho s d
    have hsize : (p.insert ns outer d).size = p.size + d.preorder.length := by
      rw [hd.size_eq, List.length_map, length_arrivals]
    rw [arrivalsAll, List.map_append, insertAll, ← hsize]
    exact hd.append (pushes_insertAll (hd.extension.declares ho) s ds)

end

/-- The type has arrived in the project, with whatever types are nested in it. -/
def Holds (p : Project) (ns : String) (a : Arrival) : Prop :=
  ∃ ids, p.definition? a.id = some { a.definition ns with nestedTypes := ids }

mutual

/-- The key that a project gives to a type of a document is the one the document gives it. -/
theorem key_arrivals {q : Project} (hq : q.Arena) {outer : Option TypeId} (n : Nat) {s : Scope}
    (ho : ∀ o, outer = some o → ∃ e, q.definition? o = some e ∧ s.ns = e.ns)
    (hs : q.scopeAt s.ns outer = s) :
    ∀ d : TypeDocument, (∀ a ∈ d.arrivals s outer n, q.Holds s.ns a) →
      ∀ a ∈ d.arrivals s outer n, q.key (a.definition s.ns) = a.key
  | ⟨header, ownNs, members, nested⟩, hholds => by
    let d : TypeDocument := ⟨header, ownNs, members, nested⟩
    have hkey : q.key (d.definition ⟨n⟩ s.ns outer) = s.keyOf header := by
      rw [hq.key_eq ho]
      exact congrArg (Scope.keyOf · header) hs
    rw [arrivals] at hholds ⊢
    obtain ⟨⟨ids, hhead⟩, hrest⟩ := List.forall_mem_cons.1 hholds
    refine List.forall_mem_cons.2 ⟨hkey, ?_⟩
    refine key_arrivalsAll hq (n + 1) (fun o h => ?_) ?_ nested hrest
    · obtain rfl := Option.some.inj h
      exact ⟨_, hhead, rfl⟩
    · have hname : q.reflectionName (d.definition ⟨n⟩ s.ns outer) = s.nameOf header.name :=
        congrArg TypeKey.name hkey
      simp only [scopeAt, Option.bind_some, hhead, Option.map_some, Scope.inside]
      rw [← hname]
      rfl

theorem key_arrivalsAll {q : Project} (hq : q.Arena) {outer : Option TypeId} (n : Nat) {s : Scope}
    (ho : ∀ o, outer = some o → ∃ e, q.definition? o = some e ∧ s.ns = e.ns)
    (hs : q.scopeAt s.ns outer = s) :
    ∀ ds : List TypeDocument, (∀ a ∈ arrivalsAll s outer n ds, q.Holds s.ns a) →
      ∀ a ∈ arrivalsAll s outer n ds, q.key (a.definition s.ns) = a.key
  | [], _ => by simp [arrivalsAll]
  | d :: ds, hholds => by
    rw [arrivalsAll] at hholds ⊢
    obtain ⟨hd, hds⟩ := List.forall_mem_append.1 hholds
    exact List.forall_mem_append.2
      ⟨key_arrivals hq n ho hs d hd, key_arrivalsAll hq _ ho hs ds hds⟩

end

theorem scope_eq_ok {p : Project} {d : TypeDocument} {outer : Option TypeId} {s : Scope}
    (h : p.scope d outer = .ok s) :
    (∀ o, outer = some o → ∃ e, p.definition? o = some e ∧ s.ns = e.ns) ∧
      p.scopeAt s.ns outer = s := by
  cases outer with
  | none =>
    obtain rfl := Except.ok.inj h
    exact ⟨by simp, rfl⟩
  | some o =>
    cases he : p.definition? o with
    | none => simp [scope, he] at h
    | some e =>
      simp only [scope, he, Except.ok.injEq] at h
      subst h
      refine ⟨fun o' ho => ?_, by simp [scopeAt, he]⟩
      obtain rfl := Option.some.inj ho
      exact ⟨e, he, rfl⟩

theorem size_insert {p : Project} {d : TypeDocument} {outer : Option TypeId} {s : Scope}
    (hs : p.scope d outer = .ok s) :
    (p.insert s.ns outer d).size = p.size + d.preorder.length := by
  rw [(pushes_insert (scope_eq_ok hs).1 s d).size_eq, List.length_map, length_arrivals]

/-- The types of a document are there in the order of their arrival. -/
theorem definition?_insert_new {p : Project} {d : TypeDocument} {outer : Option TypeId} {s : Scope}
    (hs : p.scope d outer = .ok s) {k : Nat} {a : Arrival}
    (hk : (d.arrivals s outer p.size)[k]? = some a) :
    ∃ ids, (p.insert s.ns outer d).definition? ⟨p.size + k⟩ =
      some { a.definition s.ns with nestedTypes := ids } := by
  have hpush := pushes_insert (scope_eq_ok hs).1 s d
  have hk' : ((d.arrivals s outer p.size).map (Arrival.definition s.ns))[k]? =
      some (a.definition s.ns) := by
    rw [List.getElem?_map, hk, Option.map_some]
  obtain ⟨ids, hdef⟩ := hpush.definition?_new (List.mem_of_getElem? hk')
  rw [← hpush.id_eq hk']
  exact ⟨ids, hdef⟩

theorem Extends.scopeAt_eq {p q : Project} (h : p.Extends q) (hp : p.Arena) (hq : q.Arena)
    {outer : Option TypeId} (ho : ∀ o, outer = some o → (p.definition? o).isSome) (ns : String) :
    q.scopeAt ns outer = p.scopeAt ns outer := by
  cases outer with
  | none => rfl
  | some o =>
    obtain ⟨e, he⟩ := Option.isSome_iff_exists.1 (ho o rfl)
    obtain ⟨ids, hqe⟩ := h o e he
    have hname : q.reflectionName e = p.reflectionName e :=
      congrArg TypeKey.name (h.key_eq hp hq fun _ ho' => hp.outer_lt_size he ho')
    simp only [scopeAt, Option.bind_some, he, hqe, Option.map_some, Scope.mk.injEq, true_and,
      Option.some.injEq]
    exact hname

/-- A document that is inserted where its scope says arrives with the keys of its own. -/
theorem Arena.pushes_insert {p : Project} (hp : p.Arena) {d : TypeDocument}
    {outer : Option TypeId} {s : Scope} (hs : p.scope d outer = .ok s) :
    Pushes p ((d.arrivals s outer p.size).map (Arrival.definition s.ns)) (p.insert s.ns outer d) ∧
      ∀ a ∈ d.arrivals s outer p.size, (p.insert s.ns outer d).key (a.definition s.ns) = a.key := by
  obtain ⟨ho, hscope⟩ := scope_eq_ok hs
  have hpush := Project.pushes_insert ho s d
  refine ⟨hpush, ?_⟩
  have hq := hpush.arena hp
  refine key_arrivals hq p.size (hpush.extension.declares ho) ?_ d fun a ha => ?_
  · rw [hpush.extension.scopeAt_eq hp hq (fun o h => ?_), hscope]
    obtain ⟨e, he, -⟩ := ho o h
    simp [he]
  · exact hpush.definition?_new (List.mem_map_of_mem ha)

end Project

end QuickInfo
