import QuickInfo.Proofs.Snapshot.Writing

/-!
# Objects of a snapshot

The objects of which a snapshot consists, with their keys and their default values as the format has
them. Each of them is read as a record, and the order of its fields does not count.
-/
namespace QuickInfo.Snapshot

open Json (Source Decoder Field Record)

/-- The kinds of object in a snapshot. -/
inductive Part where
  | assembly
  | type
  | member
  | parameter
  | typeParameter
  | reference (kind : ReferenceKind)
  deriving DecidableEq, Repr

namespace Part

/-- The keys of the objects. -/
def keys : Part → List String
  | assembly => ["name", "types"]
  | type => ["namespace", "name", "kind", "accessibility", "modifiers", "type_parameters",
    "members", "nested_types"]
  | member => ["kind", "name", "accessibility", "modifiers", "return_type", "parameters",
    "type_parameters"]
  | parameter => ["name", "type", "modifier"]
  | typeParameter => ["name", "variance"]
  | reference .named => ["kind", "name", "type_arguments"]
  | reference .typeParameter => ["kind", "name"]
  | reference .array => ["kind", "element", "rank"]
  | reference .pointer => ["kind", "element"]
  | reference .byReference => ["kind", "element"]

/-- The fields by which the objects are known: a reference says its kind. -/
def tag : Part → List (String × Json)
  | reference kind => [("kind", Enumeration.toJson kind)]
  | _ => []

/-- The fields that may be left out: an object without one of them means the same. -/
def defaults : Part → List (String × Json)
  | assembly => [("name", .null)]
  | type => [("namespace", .string ""), ("accessibility", .string "none"), ("modifiers", .array []),
    ("type_parameters", .array []), ("members", .array []), ("nested_types", .array [])]
  | member => [("accessibility", .string "none"), ("modifiers", .array []),
    ("return_type", TypeReference.void.toJson), ("parameters", .array []),
    ("type_parameters", .array [])]
  | parameter => [("modifier", .null)]
  | typeParameter => [("variance", .string "invariant")]
  | reference .named => [("type_arguments", .array [])]
  | reference .array => [("rank", .number (.integer 1))]
  | reference _ => []

/-- In the objects of kind `p`, the value of the key is an object of kind `q`. -/
inductive One : (p : Part) → String → (q : Part) → Prop
  | returnType (kind : ReferenceKind) : One member "return_type" (reference kind)
  | parameterType (kind : ReferenceKind) : One parameter "type" (reference kind)
  | arrayElement (kind : ReferenceKind) : One (reference .array) "element" (reference kind)
  | pointerElement (kind : ReferenceKind) : One (reference .pointer) "element" (reference kind)
  | byReferenceElement (kind : ReferenceKind) :
    One (reference .byReference) "element" (reference kind)

/-- In the objects of kind `p`, the value of the key is a list of objects of kind `q`. -/
inductive Many : (p : Part) → String → (q : Part) → Prop
  | types : Many assembly "types" type
  | nestedTypes : Many type "nested_types" type
  | members : Many type "members" member
  | typeParameters : Many type "type_parameters" typeParameter
  | parameters : Many member "parameters" parameter
  | memberTypeParameters : Many member "type_parameters" typeParameter
  | typeArguments (kind : ReferenceKind) : Many (reference .named) "type_arguments" (reference kind)

/-- What is read from the objects. -/
abbrev Content : Part → Type
  | assembly => AssemblyDocument
  | type => TypeDocument
  | member => MemberDocument
  | parameter => Parameter
  | typeParameter => TypeParameter
  | reference _ => ReferenceParts

/-- The record that reads the objects. -/
def record : (p : Part) → Record Empty p.Content
  | assembly => assemblyRecord .memory
  | type => typeRecord .memory (typeDocument .memory)
  | member => memberDocument .memory
  | parameter => Snapshot.parameter .memory
  | typeParameter => Snapshot.typeParameter .memory
  | reference kind => kind.record (referenceAt .inner)

/-- The keys are those of the record and of the tag. -/
theorem mem_keys_iff {p : Part} {k : String} :
    k ∈ p.keys ↔ (∃ f ∈ p.record.fields, f.key = k) ∨ k ∈ p.tag.map Prod.fst := by
  cases p with
  | reference kind =>
    cases kind <;> simp [record, keys, tag, ReferenceKind.record, ReferenceKind.nameField,
      ReferenceKind.argumentsField, ReferenceKind.elementField, ReferenceKind.rankField, eq_comm,
      or_comm]
  | _ =>
    simp [record, keys, tag, assemblyRecord, typeRecord, memberDocument, Snapshot.parameter,
      Snapshot.typeParameter, eq_comm]

theorem field?_eq_none {p : Part} {k : String} (h : k ∉ p.keys) : p.record.field? k = none := by
  apply Record.field?_eq_none_iff.2
  intro f hf hk
  exact h (mem_keys_iff.2 (.inl ⟨f, hf, hk⟩))

theorem ne_kind_of_field {p : Part} {kind : ReferenceKind} {k : String} {f : Field Empty p.Content}
    (h : p.record.field? k = some f) (hp : p = reference kind) : k ≠ "kind" := by
  rintro rfl
  subst hp
  rw [record, field?_kind] at h
  cases h

theorem ne_kind_of_notMem {p : Part} {kind : ReferenceKind} {k : String} (h : k ∉ p.keys)
    (hp : p = reference kind) : k ≠ "kind" := by
  rintro rfl
  subst hp
  exact h (mem_keys_iff.2 (.inr List.mem_cons_self))

/-- The blank record holds the default values. -/
theorem exists_field_of_mem_defaults {p : Part} {k : String} {v : Json}
    (h : (k, v) ∈ p.defaults) :
    ∃ f, p.record.field? k = some f ∧ f.required = false ∧
      f.read (Source.ofJson v) p.record.blank = .ok p.record.blank := by
  suffices hall : ∀ field ∈ p.defaults, ∃ f, p.record.field? field.1 = some f ∧
      f.required = false ∧
      f.read (Source.ofJson field.2) p.record.blank = .ok p.record.blank from hall _ h
  cases p with
  | reference kind =>
    cases kind <;> simp only [defaults, List.forall_mem_cons, List.not_mem_nil, false_imp_iff,
      implies_true, and_true] <;> exact ⟨_, rfl, rfl, rfl⟩
  | _ =>
    simp only [defaults, List.forall_mem_cons, List.not_mem_nil, false_imp_iff, implies_true,
      and_true]
    and_intros <;> exact ⟨_, rfl, rfl, rfl⟩

theorem record_separate (p : Part) : p.record.Separate where
  distinct := by
    cases p with
    | reference kind =>
      cases kind <;> simp [record, ReferenceKind.record, ReferenceKind.nameField,
        ReferenceKind.argumentsField, ReferenceKind.elementField, ReferenceKind.rankField]
    | _ =>
      simp [record, assemblyRecord, typeRecord, memberDocument, Snapshot.parameter,
        Snapshot.typeParameter]
  apart := by
    -- each field stores one component of the document
    cases p with
    | reference kind =>
      cases kind <;> simp only [record, ReferenceKind.record, List.pairwise_cons, List.mem_cons,
        List.not_mem_nil, or_false, forall_eq, List.Pairwise.nil, and_true, false_imp_iff,
        implies_true] <;>
        exact Field.apart_of_stores (fun _ _ => rfl) (fun _ _ => rfl) fun _ _ _ => rfl
    | _ =>
      simp only [record, assemblyRecord, typeRecord, memberDocument, Snapshot.parameter,
        Snapshot.typeParameter, List.pairwise_cons, List.mem_cons, List.not_mem_nil, or_false,
        forall_eq_or_imp, forall_eq, List.Pairwise.nil, and_true, false_imp_iff, implies_true]
      and_intros <;>
        exact Field.apart_of_stores (fun _ _ => rfl) (fun _ _ => rfl) fun _ _ _ => rfl

/-- What is read from the one value is read from the other as well. -/
def Keeps : Part → Json → Json → Prop
  | assembly => Decoder.Follows (Snapshot.assembly .memory)
  | type => Decoder.Follows (typeDocument .memory)
  | member => Decoder.Follows ((memberDocument .memory).decode .memory)
  | parameter => Decoder.Follows ((Snapshot.parameter .memory).decode .memory)
  | typeParameter => Decoder.Follows ((Snapshot.typeParameter .memory).decode .memory)
  | reference _ => fun j j' => ∀ position, Decoder.Follows (referenceAt position) j j'

namespace Keeps

variable {p : Part} {i j l : Json}

theorem refl (p : Part) (j : Json) : p.Keeps j j := by
  cases p with
  | reference kind => exact fun _ _ h => h
  | _ => exact fun _ h => h

theorem trans (h : p.Keeps i j) (h' : p.Keeps j l) : p.Keeps i l := by
  cases p with
  | reference kind => exact fun position t ht => h' position t (h position t ht)
  | _ => exact fun d hd => h' d (h d hd)

end Keeps

/-- Objects are read alike if their fields are, and if a reference keeps its kind. -/
theorem keeps_of_load {p : Part} {fields fields' : List (String × Json)} (htag : p.tag ⊆ fields)
    (htags : ∀ kind, p = reference kind → ∀ t, tags fields = [t] → tags fields' = [t])
    (hload : ∀ x, p.record.load [] p.record.blank fields = .ok x →
      p.record.load [] p.record.blank fields' = .ok x) :
    p.Keeps (.object fields) (.object fields') := by
  cases p with
  | reference kind =>
    intro position t h
    obtain ⟨v, kind', a, hv, hkind, ha, ht⟩ := referenceAt_object_eq_ok_iff.1 h
    have hmem : ("kind", Enumeration.toJson kind) ∈ tags fields :=
      List.mem_filter.2 ⟨htag List.mem_cons_self, by simp⟩
    rw [hv, List.mem_singleton] at hmem
    -- the one field that gives a kind is the tag, so that the record is the one of this kind
    obtain rfl := (Prod.mk.inj hmem).2
    obtain rfl := Except.ok.inj ((referenceKind_toJson position kind).symm.trans hkind)
    have ha' := hload a (by rwa [record, record_blank])
    rw [record, record_blank] at ha'
    exact referenceAt_object_eq_ok_iff.2 ⟨_, kind, a, htags kind rfl _ hv, hkind, ha', ht⟩
  | type =>
    intro d h
    rw [typeDocument_eq, Record.decode_object] at h ⊢
    exact hload d h
  | _ => exact hload

theorem reference_follows {j j' : Json}
    (h : ∀ position, Decoder.Follows (referenceAt position) j j') :
    Decoder.Follows (Snapshot.reference : Decoder Empty TypeReference) j j' := by
  intro t ht
  rw [reference_eq] at ht ⊢
  exact h .outer t ht

/-- A field keeps what it stores if the object that is its value keeps what is read from it. -/
theorem One.exists_field {p q : Part} {k : String} {v v' : Json} (hk : One p k q)
    (hv : q.Keeps v v') : ∃ f, p.record.field? k = some f ∧ f.Follows v v' := by
  cases hk with
  | returnType kind =>
    exact ⟨_, rfl, Field.Stores.follows (fun _ _ => rfl) (reference_follows hv)⟩
  | parameterType kind =>
    exact ⟨_, rfl, Field.Stores.follows (fun _ _ => rfl) (reference_follows hv)⟩
  | _ => exact ⟨_, rfl, Field.Stores.follows (fun _ _ => rfl) (hv .inner)⟩

/-- A field keeps what it stores if an object in its value keeps what is read from it. -/
theorem Many.exists_field {p q : Part} {k : String} {v v' : Json} (hk : Many p k q)
    (hv : q.Keeps v v') (before after : List Json) :
    ∃ f, p.record.field? k = some f ∧
      f.Follows (.array (before ++ v :: after)) (.array (before ++ v' :: after)) := by
  cases hk with
  | typeArguments kind =>
    have hlist := (hv .inner).list before after
    exact ⟨_, rfl, Field.Stores.follows (fun _ _ => rfl) hlist⟩
  | _ =>
    have hlist := Decoder.Follows.list hv before after
    exact ⟨_, rfl, Field.Stores.follows (fun _ _ => rfl) hlist⟩

end Part

end QuickInfo.Snapshot
