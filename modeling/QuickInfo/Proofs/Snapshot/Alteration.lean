import Mathlib.Logic.Relation
import QuickInfo.Load
import QuickInfo.Proofs.Snapshot.Parts

/-!
# Altered documents

A JSON document may be altered at any place: the fields of an object come in another order, a field
with its default value is left out, or a key is put in that the object does not have. What is read
from the document stays the same.
-/
namespace QuickInfo.Snapshot

open Json (Record)

/-- One alteration of an object of the given kind, or of an object inside it. -/
inductive Alters : Part → Json → Json → Prop
  /-- The fields come in another order. -/
  | permute {p : Part} {fields fields' : List (String × Json)} (htag : p.tag ⊆ fields)
    (hperm : fields.Perm fields') : Alters p (.object fields) (.object fields')
  /-- A field with its default value is left out. -/
  | leaveOut {p : Part} {k : String} {v : Json} (front back : List (String × Json))
    (htag : p.tag ⊆ front ++ (k, v) :: back) (hv : (k, v) ∈ p.defaults) :
    Alters p (.object (front ++ (k, v) :: back)) (.object (front ++ back))
  /-- A field is put in with a key that objects of this kind do not have. -/
  | putIn {p : Part} {k : String} (front back : List (String × Json)) (htag : p.tag ⊆ front ++ back)
    (hk : k ∉ p.keys) (v : Json) :
    Alters p (.object (front ++ back)) (.object (front ++ (k, v) :: back))
  /-- The object that is the value of a key is altered. -/
  | value {p q : Part} {k : String} {v v' : Json} (front back : List (String × Json))
    (htag : p.tag ⊆ front ++ (k, v) :: back) (hk : p.One k q) (h : Alters q v v') :
    Alters p (.object (front ++ (k, v) :: back)) (.object (front ++ (k, v') :: back))
  /-- An object in the list that is the value of a key is altered. -/
  | item {p q : Part} {k : String} {v v' : Json} (front back : List (String × Json))
    (before after : List Json)
    (htag : p.tag ⊆ front ++ (k, .array (before ++ v :: after)) :: back) (hk : p.Many k q)
    (h : Alters q v v') :
    Alters p (.object (front ++ (k, .array (before ++ v :: after)) :: back))
      (.object (front ++ (k, .array (before ++ v' :: after)) :: back))

variable {p : Part} {j j' : Json}

/-- The value of a field may be replaced by one that is stored alike. -/
theorem keeps_value {k : String} {v v' : Json} {front back : List (String × Json)}
    (htag : p.tag ⊆ front ++ (k, v) :: back)
    (h : ∃ f, p.record.field? k = some f ∧ f.Follows v v') :
    p.Keeps (.object (front ++ (k, v) :: back)) (.object (front ++ (k, v') :: back)) := by
  obtain ⟨f, hf, hv⟩ := h
  apply Part.keeps_of_load htag
  · intro kind hp t ht
    have hk : k ≠ "kind" := Part.ne_kind_of_field hf hp
    rwa [tags_middle hk] at ht ⊢
  · intro x hx
    have hfirst := Record.load_perm p.record_separate List.perm_middle hx
    exact Record.load_perm p.record_separate List.perm_middle.symm
      (Record.load_value hf hv hfirst)

/-- An alteration keeps what is read. -/
theorem Alters.keeps (h : Alters p j j') : p.Keeps j j' := by
  induction h with
  | @permute p fields fields' htag hperm =>
    apply Part.keeps_of_load htag
    · intro kind _ t ht
      have htags : (tags fields).Perm (tags fields') := hperm.filter _
      rw [ht] at htags
      exact List.perm_singleton.1 htags.symm
    · intro x hx
      exact Record.load_perm p.record_separate hperm hx
  | @leaveOut p k v front back htag hv =>
    obtain ⟨f, hf, hreq, hread⟩ := Part.exists_field_of_mem_defaults hv
    apply Part.keeps_of_load htag
    · intro kind hp t ht
      have hk : k ≠ "kind" := Part.ne_kind_of_field hf hp
      rwa [tags_middle hk] at ht
    · intro x hx
      -- in front, the field is read into the blank record, which holds its value already
      have hfirst := Record.load_perm p.record_separate List.perm_middle hx
      exact Record.load_omit p.record_separate hf hreq hread hfirst
  | @putIn p k front back htag hk v =>
    apply Part.keeps_of_load htag
    · intro kind hp t ht
      rwa [tags_middle (Part.ne_kind_of_notMem hk hp)]
    · intro x hx
      apply Record.load_perm p.record_separate List.perm_middle.symm
      rwa [Record.load_unknown (Part.field?_eq_none hk)]
  | value front back htag hk _ ih => exact keeps_value htag (hk.exists_field ih)
  | item front back before after htag hk _ ih =>
    exact keeps_value htag (hk.exists_field ih before after)

/-- Any number of alterations keep what is read. -/
theorem keeps_of_alterations (h : Relation.ReflTransGen (Alters p) j j') : p.Keeps j j' := by
  induction h with
  | refl => exact Part.Keeps.refl p j
  | tail _ hstep ih => exact ih.trans hstep.keeps

/-- A snapshot that is written with all its keys is read back and gives its project, also if fields
with default values are left out at any depth and keys are put in that the objects do not have. -/
theorem altered_document_reads_back (d : AssemblyDocument)
    (h : Relation.ReflTransGen (Alters .assembly) d.toJson j) :
    ofJson (assembly .memory) j = .ok d ∧ Project.ofJson j = Project.ofSnapshot d := by
  have hread : assembly .memory (Json.Source.ofJson j) = .ok d :=
    keeps_of_alterations h d (assembly_toJson d)
  have hdecoded : ofJson (assembly .memory) j = .ok d := by rw [ofJson, hread]
  refine ⟨hdecoded, ?_⟩
  rw [Project.ofJson, hdecoded]
  rfl

/-- A class with one field, an array. -/
def rackDocument : AssemblyDocument where
  types := [{
    kind := .classType
    name := "Rack"
    typeParameters := [⟨"T", .invariant⟩]
    members := [{
      kind := .field
      name := "slots"
      returnType := .array (.typeParameter "T") 1 }] }]

/-- The class as an object, with more fields in front; the object of the array has the given fields
after its kind and its element. -/
def rackType (more array : List (String × Json)) : Json :=
  .object ((more ++ [("namespace", .string ""), ("name", .string "Rack"), ("kind", .string "class"),
      ("accessibility", .string "none"), ("modifiers", .array []),
      ("type_parameters", .array
        [.object [("name", .string "T"), ("variance", .string "invariant")]])]) ++
    ("members", .array [.object ([("kind", .string "field"), ("name", .string "slots"),
        ("accessibility", .string "none"), ("modifiers", .array [])] ++
      ("return_type", .object ([("kind", .string "array"),
        ("element", .object [("kind", .string "type_parameter"), ("name", .string "T")])] ++
          array)) ::
      [("parameters", .array []), ("type_parameters", .array [])])]) ::
    [("nested_types", .array [])])

/-- The snapshot with this class, without a name. -/
def rackJson (more array : List (String × Json)) : Json :=
  .object [("types", .array [rackType more array])]

theorem altered_document_reads_back_rack :
    Relation.ReflTransGen (Alters .assembly) rackDocument.toJson
      (rackJson [("doc", .string "Holds things.")] []) ∧
    ofJson (assembly .memory) (rackJson [("doc", .string "Holds things.")] []) =
      .ok rackDocument ∧
    Project.ofJson (rackJson [("doc", .string "Holds things.")] []) =
      Project.ofSnapshot rackDocument := by
  have hname : Alters .assembly rackDocument.toJson
      (rackJson [] [("rank", .number (.integer 1))]) :=
    .leaveOut [] _ (List.nil_subset _) List.mem_cons_self
  have hrank : Alters .assembly (rackJson [] [("rank", .number (.integer 1))])
      (rackJson [] []) := by
    refine .item [] [] [] [] (List.nil_subset _) .types ?_
    refine .item _ _ [] [] (List.nil_subset _) .members ?_
    refine .value _ _ (List.nil_subset _) (.returnType .array) ?_
    refine .leaveOut _ [] ?_ List.mem_cons_self
    exact List.cons_subset.2 ⟨List.mem_cons_self, List.nil_subset _⟩
  have hdoc : Alters .assembly (rackJson [] [])
      (rackJson [("doc", .string "Holds things.")] []) := by
    refine .item [] [] [] [] (List.nil_subset _) .types ?_
    exact .putIn [] _ (List.nil_subset _) (by decide) _
  have hall := ((Relation.ReflTransGen.single hname).tail hrank).tail hdoc
  exact ⟨hall, altered_document_reads_back rackDocument hall⟩

end QuickInfo.Snapshot
