import QuickInfo.Listing
import QuickInfo.Load

/-!
# Workspaces

A project and the facets that are shown, changed by one command after another. A command that fails
changes nothing.
-/
namespace QuickInfo

structure Workspace where
  project : Project
  facets : Facets

inductive WorkspaceError where
  | add (e : AddError)
  | facets (e : UnknownFacet)
  | declaration (e : DeclarationError)
  | listing (e : Listing.Error)

namespace Workspace

/-- A change of a workspace or a question to it, with the kind of its answer. -/
inductive Command : Type → Type 1 where
  | addType (d : TypeDocument) (outer : Option TypeId) : Command TypeId
  | replace (p : Project) : Command Unit
  | setFacets (text : String) : Command Facets
  | findType (key : TypeKey) : Command (Option TypeId)
  | definitionType (id : TypeId) : Command (Option DefinitionType)
  | resolve (r : TypeReference) : Command ResolvedType
  | entityText (e : Entity) : Command String
  | referenceText (r : TypeReference) : Command String
  | variableText (v : Variable) : Command String
  | listing (wanted : Option String) : Command String

/-- Runs a command: its answer, and the workspace after it. -/
def run {α : Type} (w : Workspace) : Command α → Except WorkspaceError α × Workspace
  | .addType d outer =>
    let (answer, p) := w.project.perform (Project.addType d outer)
    (answer.mapError .add, { w with project := p })
  | .replace p => (.ok (), { w with project := p })
  | .setFacets text =>
    match Facets.ofText text with
    | .ok f => (.ok f, { w with facets := f })
    | .error e => (.error (.facets e), w)
  | .findType key => (.ok (w.project.find? key), w)
  | .definitionType id => (.ok (w.project.definitionType? id), w)
  | .resolve r => (.ok (w.project.resolve r), w)
  | .entityText e => ((QuickInfo.entityText w.facets w.project e).mapError .declaration, w)
  | .referenceText r => (.ok (QuickInfo.referenceText w.facets w.project r), w)
  | .variableText v => (.ok (QuickInfo.variableText w.facets w.project v), w)
  | .listing wanted => ((QuickInfo.listing w.facets w.project wanted).mapError .listing, w)

end Workspace

end QuickInfo
