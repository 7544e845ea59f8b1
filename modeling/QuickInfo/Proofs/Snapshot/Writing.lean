import QuickInfo.Proofs.Snapshot.References

/-!
# Written documents

Every part of a snapshot as a JSON object with all its keys. What is written is read back.
-/
namespace QuickInfo

namespace Enumeration

variable {α : Type} [Enumeration α]

theorem ofName?_name (h : (names α).Nodup) (a : α) : ofName? (name a) = some a := by
  have hsome : (ofName? (name a) : Option α).isSome :=
    ofName?_isSome_iff.2 (List.mem_map_of_mem (mem_all a))
  obtain ⟨b, hb⟩ := Option.isSome_iff_exists.1 hsome
  have hname : name b = name a := name_of_ofName? hb
  rw [hb, List.inj_on_of_nodup_map h (mem_all b) (mem_all a) hname]

/-- A value as the string that names it. -/
def toJson (a : α) : Json := .string (name a)

end Enumeration

namespace TypeReference

mutual

/-- A reference as an object. -/
def toJson : TypeReference → Json
  | .named name arguments => .object
    [("kind", .string "named"), ("name", .string name),
      ("type_arguments", .array (toJsons arguments))]
  | .typeParameter name => .object [("kind", .string "type_parameter"), ("name", .string name)]
  | .array element rank => .object
    [("kind", .string "array"), ("element", element.toJson), ("rank", .number (.integer rank))]
  | .pointer element => .object [("kind", .string "pointer"), ("element", element.toJson)]
  | .byReference element => .object [("kind", .string "by_reference"), ("element", element.toJson)]

def toJsons : List TypeReference → List Json
  | [] => []
  | r :: rs => r.toJson :: toJsons rs

end

end TypeReference

def TypeParameter.toJson (t : TypeParameter) : Json :=
  .object [("name", .string t.name), ("variance", Enumeration.toJson t.variance)]

/-- An optional string, which is `null` if it is absent. -/
def Json.ofOption : Option String → Json
  | none => .null
  | some s => .string s

def Parameter.toJson (a : Parameter) : Json :=
  .object [("name", .string a.name), ("type", a.type.toJson),
    ("modifier", .ofOption (a.modifier.map Enumeration.name))]

def MemberDocument.toJson (m : MemberDocument) : Json :=
  .object [("kind", Enumeration.toJson m.kind), ("name", .string m.name),
    ("accessibility", Enumeration.toJson m.accessibility),
    ("modifiers", .array (m.modifiers.map Enumeration.toJson)),
    ("return_type", m.returnType.toJson),
    ("parameters", .array (m.parameters.map Parameter.toJson)),
    ("type_parameters", .array (m.typeParameters.map TypeParameter.toJson))]

namespace TypeDocument

mutual

def toJson : TypeDocument → Json
  | ⟨header, ns, members, nested⟩ => .object
    [("namespace", .string ns), ("name", .string header.name),
      ("kind", Enumeration.toJson header.kind),
      ("accessibility", Enumeration.toJson header.accessibility),
      ("modifiers", .array (header.modifiers.map Enumeration.toJson)),
      ("type_parameters", .array (header.typeParameters.map TypeParameter.toJson)),
      ("members", .array (members.map MemberDocument.toJson)),
      ("nested_types", .array (toJsons nested))]

def toJsons : List TypeDocument → List Json
  | [] => []
  | d :: ds => d.toJson :: toJsons ds

end

end TypeDocument

def AssemblyDocument.toJson (d : AssemblyDocument) : Json :=
  .object [("name", .ofOption d.name), ("types", .array (TypeDocument.toJsons d.types))]

namespace Snapshot

open Json (Source Decoder Field Record Medium)
open Json.Decode

variable {ε α : Type}

/-- A value is read back from its name if no two values have the same name. -/
theorem enumeration_toJson [Enumeration α] (medium : Medium ε) (h : (Enumeration.names α).Nodup)
    (a : α) : enumeration medium (Source.ofJson (Enumeration.toJson a)) = .ok a := by
  have hname := Enumeration.ofName?_name h a
  simp only [Enumeration.toJson, Source.ofJson, enumeration, named, hname]

theorem optional_ofOption {d : Decoder ε α} {write : α → String}
    (h : ∀ a, d (.string (write a)) = .ok a) (o : Option α) :
    optional d (Source.ofJson (.ofOption (o.map write))) = .ok o := by
  cases o with
  | none => rfl
  | some a =>
    have hsome : optional d (.string (write a)) = some <$> d (.string (write a)) := rfl
    rw [Option.map_some, Json.ofOption, Source.ofJson, hsome, h a]
    rfl

theorem list_cons {d : Decoder ε α} {j : Json} {js : List Json} {a : α} {as : List α}
    (ha : d (Source.ofJson j) = .ok a) (has : list d (Source.ofJson (.array js)) = .ok as) :
    list d (Source.ofJson (.array (j :: js))) = .ok (a :: as) := by
  obtain ⟨bs, hbs, has⟩ := Json.bind_eq_ok_iff.1 has
  obtain rfl := Except.ok.inj has
  have hitems : items d (Source.ofItems (j :: js)) = .ok (a :: bs) :=
    Json.bind_eq_ok_iff.2 ⟨a, ha, Json.bind_eq_ok_iff.2 ⟨bs, hbs, rfl⟩⟩
  exact Json.bind_eq_ok_iff.2 ⟨a :: bs, hitems, rfl⟩

theorem list_map {d : Decoder ε α} {write : α → Json} (as : List α)
    (h : ∀ a ∈ as, d (Source.ofJson (write a)) = .ok a) :
    list d (Source.ofJson (.array (as.map write))) = .ok as := by
  induction as with
  | nil => rfl
  | cons a as ih =>
    obtain ⟨ha, has⟩ := List.forall_mem_cons.1 h
    exact list_cons ha (ih has)

theorem string_ofJson (s : String) : string (Source.ofJson (.string s) : Source ε) = .ok s :=
  rfl

theorem typeParameter_toJson (t : TypeParameter) :
    (typeParameter .memory).decode .memory (Source.ofJson t.toJson) = .ok t := by
  have hvariance := enumeration_toJson .memory (by decide) t.variance
  rw [TypeParameter.toJson, Record.decode_object]
  apply Record.load_stored rfl (fun _ _ => rfl) (by simp) (string_ofJson t.name)
  apply Record.load_stored rfl (fun _ _ => rfl) (by simp) hvariance
  rfl

theorem rank_ofJson (n : Nat) : rank (Source.ofJson (.number (.integer n))) = .ok n := by
  rw [Source.ofJson, rank, if_neg (by omega), Int.toNat_natCast]

theorem referenceKind_toJson (position : Position) (kind : ReferenceKind) :
    referenceKind position (Source.ofJson (Enumeration.toJson kind) : Source Empty) = .ok kind := by
  have hname := Enumeration.ofName?_name (by decide) kind
  simp only [Enumeration.toJson, Source.ofJson, referenceKind, named, hname]

/-- A reference is read from its parts if its kind is written in front of them. -/
theorem referenceAt_tagged (position : Position) (kind : ReferenceKind) (a : ReferenceParts)
    {parts : List (String × Json)} (htags : tags parts = [])
    (h : (kind.record (referenceAt .inner)).load [] {} parts = .ok a) :
    referenceAt position (Source.ofJson (.object (("kind", Enumeration.toJson kind) :: parts))) =
      .ok (kind.build a) := by
  have hkind : tags (("kind", Enumeration.toJson kind) :: parts) =
      ("kind", Enumeration.toJson kind) :: tags parts := rfl
  rw [htags] at hkind
  refine referenceAt_object_eq_ok_iff.2
    ⟨_, kind, a, hkind, referenceKind_toJson position kind, ?_, rfl⟩
  rwa [Record.load_unknown (field?_kind _ kind)]

mutual

/-- A reference is read back at any position. -/
theorem referenceAt_toJson (position : Position) :
    ∀ r : TypeReference, referenceAt position (Source.ofJson r.toJson) = .ok r
  | .named name arguments => by
    have harguments := references_toJsons arguments
    apply referenceAt_tagged position .named { name := name, arguments := arguments } rfl
    apply Record.load_stored rfl (fun _ _ => rfl) (by simp) (string_ofJson name)
    apply Record.load_stored rfl (fun _ _ => rfl) (by simp) harguments
    rfl
  | .typeParameter name => by
    apply referenceAt_tagged position .typeParameter { name := name } rfl
    apply Record.load_stored rfl (fun _ _ => rfl) (by simp) (string_ofJson name)
    rfl
  | .array element rank => by
    have helement := referenceAt_toJson .inner element
    apply referenceAt_tagged position .array { element := element, rank := rank } rfl
    apply Record.load_stored rfl (fun _ _ => rfl) (by simp) helement
    apply Record.load_stored rfl (fun _ _ => rfl) (by simp) (rank_ofJson rank)
    rfl
  | .pointer element => by
    have helement := referenceAt_toJson .inner element
    apply referenceAt_tagged position .pointer { element := element } rfl
    apply Record.load_stored rfl (fun _ _ => rfl) (by simp) helement
    rfl
  | .byReference element => by
    have helement := referenceAt_toJson .inner element
    apply referenceAt_tagged position .byReference { element := element } rfl
    apply Record.load_stored rfl (fun _ _ => rfl) (by simp) helement
    rfl

theorem references_toJsons : ∀ rs : List TypeReference,
    list (referenceAt .inner) (Source.ofJson (.array (TypeReference.toJsons rs))) = .ok rs
  | [] => rfl
  | r :: rs => list_cons (referenceAt_toJson .inner r) (references_toJsons rs)

end

theorem reference_toJson (r : TypeReference) :
    reference (Source.ofJson r.toJson : Source Empty) = .ok r :=
  (reference_eq _).trans (referenceAt_toJson .outer r)

theorem parameter_toJson (a : Parameter) :
    (parameter .memory).decode .memory (Source.ofJson a.toJson) = .ok a := by
  have htype := reference_toJson a.type
  have hmodifier : optional (enumeration .memory)
      (Source.ofJson (.ofOption (a.modifier.map Enumeration.name))) = .ok a.modifier :=
    optional_ofOption (enumeration_toJson .memory (by decide)) a.modifier
  rw [Parameter.toJson, Record.decode_object]
  apply Record.load_stored rfl (fun _ _ => rfl) (by simp) (string_ofJson a.name)
  apply Record.load_stored rfl (fun _ _ => rfl) (by simp) htype
  apply Record.load_stored rfl (fun _ _ => rfl) (by simp) hmodifier
  rfl

theorem memberDocument_toJson (m : MemberDocument) :
    (memberDocument .memory).decode .memory (Source.ofJson m.toJson) = .ok m := by
  have hkind := enumeration_toJson .memory (by decide) m.kind
  have haccessibility := enumeration_toJson .memory (by decide) m.accessibility
  have hmodifiers := list_map m.modifiers fun e _ => enumeration_toJson .memory (by decide) e
  have hreturnType := reference_toJson m.returnType
  have hparameters := list_map m.parameters fun a _ => parameter_toJson a
  have htypeParameters := list_map m.typeParameters fun t _ => typeParameter_toJson t
  rw [MemberDocument.toJson, Record.decode_object]
  apply Record.load_stored rfl (fun _ _ => rfl) (by simp) hkind
  apply Record.load_stored rfl (fun _ _ => rfl) (by simp) (string_ofJson m.name)
  apply Record.load_stored rfl (fun _ _ => rfl) (by simp) haccessibility
  apply Record.load_stored rfl (fun _ _ => rfl) (by simp) hmodifiers
  apply Record.load_stored rfl (fun _ _ => rfl) (by simp) hreturnType
  apply Record.load_stored rfl (fun _ _ => rfl) (by simp) hparameters
  apply Record.load_stored rfl (fun _ _ => rfl) (by simp) htypeParameters
  rfl

mutual

theorem typeDocument_toJson : ∀ d : TypeDocument,
    typeDocument .memory (Source.ofJson d.toJson) = .ok d
  | ⟨header, ns, members, nested⟩ => by
    have hkind := enumeration_toJson .memory (by decide) header.kind
    have haccessibility := enumeration_toJson .memory (by decide) header.accessibility
    have hmodifiers := list_map header.modifiers
      fun e _ => enumeration_toJson .memory (by decide) e
    have htypeParameters := list_map header.typeParameters fun t _ => typeParameter_toJson t
    have hmembers := list_map members fun m _ => memberDocument_toJson m
    have hnested := typeDocuments_toJsons nested
    rw [typeDocument_eq, TypeDocument.toJson, Record.decode_object]
    apply Record.load_stored rfl (fun _ _ => rfl) (by simp) (string_ofJson ns)
    apply Record.load_stored rfl (fun _ _ => rfl) (by simp) (string_ofJson header.name)
    apply Record.load_stored rfl (fun _ _ => rfl) (by simp) hkind
    apply Record.load_stored rfl (fun _ _ => rfl) (by simp) haccessibility
    apply Record.load_stored rfl (fun _ _ => rfl) (by simp) hmodifiers
    apply Record.load_stored rfl (fun _ _ => rfl) (by simp) htypeParameters
    apply Record.load_stored rfl (fun _ _ => rfl) (by simp) hmembers
    apply Record.load_stored rfl (fun _ _ => rfl) (by simp) hnested
    rfl

theorem typeDocuments_toJsons : ∀ ds : List TypeDocument,
    list (typeDocument .memory) (Source.ofJson (.array (TypeDocument.toJsons ds))) = .ok ds
  | [] => rfl
  | d :: ds => list_cons (typeDocument_toJson d) (typeDocuments_toJsons ds)

end

/-- A snapshot that is written with all its keys is read back. -/
theorem assembly_toJson (d : AssemblyDocument) :
    assembly .memory (Source.ofJson d.toJson) = .ok d := by
  have hname : optional string (Source.ofJson (.ofOption d.name) : Source Empty) = .ok d.name := by
    cases d.name <;> rfl
  have htypes := typeDocuments_toJsons d.types
  rw [AssemblyDocument.toJson, assembly, Record.decode_object]
  apply Record.load_stored rfl (fun _ _ => rfl) (by simp) hname
  apply Record.load_stored rfl (fun _ _ => rfl) (by simp) htypes
  rfl

end Snapshot

end QuickInfo
