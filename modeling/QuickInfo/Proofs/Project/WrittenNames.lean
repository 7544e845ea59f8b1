import QuickInfo.Proofs.Project.Spelling

/-!
# Names that are written and read

References name a type by its written name, which is read as a namespace and a path of names. Reading
undoes writing for every type of a project, unless a plus sign in its namespace is taken for the end
of a name. Writing undoes reading for every text, up to a dot at its start.
-/
namespace QuickInfo

open QualifiedName

namespace Project

variable {p : Project}

/-- The written name of a type is read as its namespace and the names of the enclosing types and the
type exactly if its namespace is plain. -/
theorem WellFormed.ofText_reflectionName_eq_iff (hp : p.WellFormed) {i : TypeId} {d : TypeDefinition}
    (hd : p.definition? i = some d) {outers : List TypeDefinition}
    (houters : p.Chain d.declaringType outers) :
    QualifiedName.ofText (p.reflectionName d) =
        ⟨d.ns, (outers.reverse.map fun o => o.name) ++ [d.name]⟩ ↔
      '+' ∉ d.ns.toList := by
  constructor
  · intro h
    have hns := plus_notMem_ns_ofText (p.reflectionName d)
    rwa [h] at hns
  · intro hns
    exact hp.ofText_reflectionName hd hns houters

/-- Reading the written name of a type gives its namespace and the names of the enclosing types and
the type exactly if there is no plus sign in the namespace. What is read from any text is written as
the text again, but for a dot at its start that is the only one before the first plus sign. -/
theorem names_read_back (h : p.Reachable) :
    (∀ {i d}, p.definition? i = some d → ∃ outers, p.Chain d.declaringType outers ∧
      (QualifiedName.ofText (p.reflectionName d) =
          ⟨d.ns, (outers.reverse.map fun o => o.name) ++ [d.name]⟩ ↔
        '+' ∉ d.ns.toList)) ∧
      ∀ s, (¬LeadingDot s → (QualifiedName.ofText s).text = s) ∧
        (LeadingDot s → "." ++ (QualifiedName.ofText s).text = s) := by
  have hp := h.wellFormed
  refine ⟨?_, fun s => ⟨text_ofText, append_text_ofText⟩⟩
  intro i d hd
  obtain ⟨outers, houters⟩ := hp.exists_chain_outward hd
  exact ⟨outers, houters, hp.ofText_reflectionName_eq_iff hd houters⟩

def cellDocument : TypeDocument where
  kind := .structType
  name := "Cell"

/-- A structure in a class, in the given namespace. -/
def gridDocument (ns : String) : TypeDocument where
  kind := .classType
  name := "Grid"
  ns := ns
  nestedTypes := [cellDocument]

def gridProject (ns : String) : Project := ((∅ : Project).perform (addType (gridDocument ns) none)).2

def cellDefinition (ns : String) : TypeDefinition := cellDocument.definition ⟨1⟩ ns (some ⟨0⟩)

/-- The same nested type in a namespace with two dots in a row, and in one with a plus sign. -/
theorem names_read_back_cell :
    (gridProject "Acme..Net").Reachable ∧ (gridProject "C+.Net").Reachable ∧
      (gridProject "Acme..Net").definition? ⟨1⟩ = some (cellDefinition "Acme..Net") ∧
      (gridProject "C+.Net").definition? ⟨1⟩ = some (cellDefinition "C+.Net") ∧
      QualifiedName.ofText ((gridProject "Acme..Net").reflectionName (cellDefinition "Acme..Net")) =
        ⟨"Acme..Net", ["Grid", "Cell"]⟩ ∧
      QualifiedName.ofText ((gridProject "C+.Net").reflectionName (cellDefinition "C+.Net")) ≠
        ⟨"C+.Net", ["Grid", "Cell"]⟩ ∧
      (QualifiedName.ofText "C+.Net.Grid+Cell").text = "C+.Net.Grid+Cell" ∧
      "." ++ (QualifiedName.ofText ".Cell").text = ".Cell" := by
  have hr : ∀ ns, (gridProject ns).Reachable := fun ns => Reachable.empty.add _ _
  have hdots : (gridProject "Acme..Net").definition? ⟨1⟩ = some (cellDefinition "Acme..Net") := rfl
  have hplus : (gridProject "C+.Net").definition? ⟨1⟩ = some (cellDefinition "C+.Net") := rfl
  have hleading : LeadingDot ".Cell" := ⟨"Cell", rfl, by decide⟩
  have hbare : ¬LeadingDot "C+.Net.Grid+Cell" := by
    rintro ⟨rest, hrest, -⟩
    have hfirst := congrArg (fun s : String => s.toList.head?) hrest
    simp at hfirst
  obtain ⟨outers, houters, hread⟩ := (names_read_back (hr _)).1 hdots
  obtain ⟨outers', houters', hread'⟩ := (names_read_back (hr _)).1 hplus
  have hgrid : (gridProject "Acme..Net").enclosing (cellDefinition "Acme..Net") =
      .ok [((gridDocument "Acme..Net").definition ⟨0⟩ "Acme..Net" none).withNested ⟨1⟩] := rfl
  have hgrid' : (gridProject "C+.Net").enclosing (cellDefinition "C+.Net") =
      .ok [((gridDocument "C+.Net").definition ⟨0⟩ "C+.Net" none).withNested ⟨1⟩] := rfl
  obtain rfl := Except.ok.inj (hgrid.symm.trans ((hr _).wellFormed.enclosing_eq houters))
  obtain rfl := Except.ok.inj (hgrid'.symm.trans ((hr _).wellFormed.enclosing_eq houters'))
  refine ⟨hr _, hr _, hdots, hplus, hread.2 (by decide), fun h => hread'.1 h (by decide), ?_, ?_⟩
  · exact ((names_read_back (hr "C+.Net")).2 _).1 hbare
  · exact ((names_read_back (hr "C+.Net")).2 _).2 hleading

/-- What is before the plus sign of the namespace is read as the name of an enclosing type. -/
example : QualifiedName.ofText "C+.Net.Grid+Cell" = ⟨"", ["C", ".Net.Grid", "Cell"]⟩ := by
  decide +kernel

end Project

end QuickInfo
