import QuickInfo.Declaration.Build
import QuickInfo.Facet
import QuickInfo.Render

/-!
# Declaration texts

The C# declarations of the types, members and variables of a project with a choice of facets. A
facet that is not chosen adds nothing to a text.
-/
namespace QuickInfo

namespace Facets

variable (f : Facets)

def naming : Naming := if f.has .qualifiedTypeNames then .qualified else .short

def switches : Switches where
  modifiers := f.has .modifiers
  accessibility := f.has .accessibility
  parameterNames := f.has .parameterNames
  naming := f.naming

/-- The text, if the facet is shown. -/
def shown (a : Facet) (text : String) : String := if f.has a then text else ""

end Facets

/-- The text of a resolved type. -/
def typeText (f : Facets) (t : ResolvedType) : String :=
  Spacing.standard.type (TypeSyntax.ofType f.naming t)

def referenceText (f : Facets) (p : Project) (r : TypeReference) : String :=
  typeText f (p.resolve r)

/-- The text of a variable without the end of the statement. -/
def variableText (f : Facets) (p : Project) (v : Variable) : String :=
  Text.trimEndOf (fun c => c == ';' || c == '\r' || c == '\n')
    (Spacing.standard.variableDeclaration (f.switches.declareVariable p v))

def attributeText (text : String) : String := "[" ++ text ++ "]"

def commentText (text : String) : String := "// " ++ text

/-- The name of a type in a header: after the names of the enclosing types or, if there are none,
after the namespace. -/
def typeNameText (f : Facets) (outers : List TypeDefinition) (d : TypeDefinition) : String :=
  let withParameters (d : TypeDefinition) :=
    d.name ++ f.shown .typeParameterList (Spacing.standard.typeParameters d.typeParameters)
  match outers with
  | [] =>
    f.shown .qualifiedMemberNames (if d.ns = "" then "" else d.ns ++ ".") ++ withParameters d
  | outers => String.join (outers.reverse.map fun o => withParameters o ++ ".") ++ withParameters d

/-- The keyword of a type header with a space after it, if keywords are shown. -/
def keywordText (f : Facets) (d : TypeDeclaration) : Except DeclarationError String :=
  if f.has .definitionKeyword then
    match d.kind.keyword? with
    | some keyword => .ok (keyword ++ " ")
    | none => .error (.moduleKeyword d.name)
  else .ok ""

/-- The header of a type. -/
def typeHeaderText (f : Facets) (p : Project) (d : TypeDefinition) :
    Except DeclarationError String := do
  let declaration ← f.switches.declareType d
  let keyword ← keywordText f declaration
  match p.enclosing d with
  | .error id => .error (.missingEnclosing id d.name)
  | .ok outers =>
    return Text.trimEnd
      (f.shown .modifiers declaration.modifiers.text ++ keyword ++ typeNameText f outers d)

/-- The name of a member as it is shown. -/
def memberNameText (f : Facets) (p : Project) (declaring : TypeHeader) (m : MemberDocument) :
    String :=
  match m.kind with
  | .indexer => "this"
  | .constructor => declaring.name
  | .destructor => "~" ++ declaring.name
  | .operator =>
    match Operator.ofIdentifier? m.name with
    | none => "operator " ++ m.name
    | some o =>
      if o.isConversion then o.token ++ " operator " ++ referenceText f p m.returnType
      else "operator " ++ o.token
  | .method | .property | .field | .event => m.name

/-- The declaring type before the name of a member, if member names are qualified. -/
def qualificationText (f : Facets) (p : Project) (declaring : TypeDefinition) (name : String) :
    Except DeclarationError String :=
  if f.has .qualifiedMemberNames then
    match p.definitionType? declaring.id with
    | none => .error (.unqualifiable name declaring.name)
    | some t => .ok (typeText f (.definition t) ++ ".")
  else .ok ""

namespace MemberDeclaration

/-- The return type with a space after it, if there is one. -/
def returnTypeText (d : MemberDeclaration) : String :=
  match d.returnType with
  | none => ""
  | some t => Spacing.standard.type t ++ " "

/-- The brackets around the parameters. -/
def brackets (d : MemberDeclaration) : String × String :=
  if d.isIndexer then ("[", "]") else ("(", ")")

/-- The parameters in their brackets, if the member is of a kind that has parameters. -/
def parameterListText (d : MemberDeclaration) : String :=
  if d.kind.isParameterized then
    d.brackets.1 ++ Spacing.standard.parameters d.parameters ++ d.brackets.2
  else ""

end MemberDeclaration

/-- The header of a member. -/
def memberHeaderText (f : Facets) (p : Project) (m : Member) :
    Except DeclarationError String := do
  let declaration ← f.switches.declareMember p m
  match p.definition? m.id.declaringType with
  | none => .error (.missingDeclaring m.name)
  | some declaring =>
    let qualification ← qualificationText f p declaring m.name
    return Text.trimEnd
      (f.shown .modifiers declaration.modifiers.text ++
        f.shown .returnType declaration.returnTypeText ++
        qualification ++
        memberNameText f p declaring.toTypeHeader m.toMemberDocument ++
        f.shown .typeParameterList (Spacing.standard.typeParameters declaration.typeParameters) ++
        f.shown .parameterList declaration.parameterListText)

/-- The declaration text of a type or member. -/
def entityText (f : Facets) (p : Project) (e : Entity) : Except DeclarationError String :=
  match e with
  | .type id =>
    match p.definition? id with
    | none => .error (.unknownEntity e)
    | some d => typeHeaderText f p d
  | .member id =>
    match p.member? id with
    | none => .error (.unknownEntity e)
    | some m => memberHeaderText f p m

end QuickInfo
