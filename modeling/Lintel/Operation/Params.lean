import Lintel.Schema.Form
import Lintel.Tool.Analysis.Code
import Lintel.Tool.Analysis.Infra

/-!
# Arguments of operations

Each operation takes the arguments of one form (`InputForm`). A form is read into parameters
(`InputForm.read`): the names of its fields may be written in two ways, and other fields are refused.
-/

namespace Lintel.Operation

open Schema (Checked Form Names)
open Tool (CodeAnalysis InfraAnalysis)

/-- The parts of the project. -/
inductive Workspace where
  | server
  | web
  | infra
  deriving DecidableEq, Repr, Inhabited

namespace Workspace

/-- The word for a part of the project. -/
def name : Workspace → String
  | server => "server"
  | web => "web"
  | infra => "infra"

/-- All parts. -/
def all : List Workspace := [server, web, infra]

/-- What is wrong with a part that has to hold code. -/
def codeFlaw? (workspace : Workspace) : Option String :=
  if workspace == infra then some "workspace must be server or web" else none

end Workspace

/-- The parameters of an operation. -/
inductive Params where
  | none
  | rules (workspace : Option Workspace)
  | documents (category : Option String)
  | custom (workspace : Workspace) (targets : List String)
  | code (workspace : Workspace) (targets : List String) (analysis : CodeAnalysis)
  | infra (targets : List String) (analysis : InfraAnalysis) (deep : Bool)
  | exports (workspace : Workspace) (targets : List String)
  | review (policy : String) (files : List String)
  deriving DecidableEq, Repr, Inhabited

/-- The texts as a list. -/
def textItems (texts : List String) : Json := .arr (texts.map .str)

/-- The members of a form that give the parameters, by their second names. -/
def Params.members : Params → List (String × Json)
  | .none => []
  | .rules workspace => [("workspace", (workspace.map fun w => .str w.name).getD .null)]
  | .documents category => [("category", (category.map .str).getD .null)]
  | .custom workspace targets =>
    [("workspace", .str workspace.name), ("target_directories", textItems targets)]
  | .code workspace targets analysis =>
    [("workspace", .str workspace.name), ("target_directories", textItems targets),
      ("analysis_type", .str analysis.name)]
  | .infra targets analysis deep =>
    [("target_directories", textItems targets), ("analysis_type", .str analysis.name),
      ("deep_check", .bool deep)]
  | .exports workspace targets =>
    [("workspace", .str workspace.name), ("target_directories", textItems targets)]
  | .review policy files =>
    [("policy_id", .str policy), ("target_file_paths", textItems files)]

/-- A form for arguments: its name, and a reader that gives parameters or says what is wrong. -/
structure ArgumentForm (α : Type) where
  name : String
  read : Json → Checked α

/-- The forms for the arguments of the built-in operations. -/
inductive InputForm where
  | none
  | rules
  | documents
  | custom
  | code
  | infra
  | exports
  | review
  deriving DecidableEq, Repr

/-! ## Fields -/

/-- The field for a part of the project. -/
def workspaceNames : Names := "workspace"

/-- The field for a category. -/
def categoryNames : Names := "category"

/-- The field for the target directories. -/
def targetNames : Names := ⟨"targetDirectories", some "target_directories"⟩

/-- The field for the kind of analysis. -/
def analysisNames : Names := ⟨"analysisType", some "analysis_type"⟩

/-- The field for the deep check. -/
def deepNames : Names := ⟨"deepCheck", some "deep_check"⟩

/-- The field for the id of a policy. -/
def policyNames : Names := ⟨"policyId", some "policy_id"⟩

/-- The field for the target files. -/
def fileNames : Names := ⟨"targetFilePaths", some "target_file_paths"⟩

/-- What is wrong with paths that have to be absolute. -/
def pathFlaw? (paths : List String) : Option String :=
  let relative := paths.filter fun p => !(Files.Path.ofString p).isAbsolute
  if relative.isEmpty then Option.none
  else some ("paths must be absolute: " ++ ", ".intercalate relative)

/-- Reads at least `least` absolute paths. -/
def absolutePaths (least : Nat) (value : Json) : Checked (List String) := do
  let paths ← Schema.ruled pathFlaw? (Schema.list Schema.text) value
  if paths.length < least then Schema.refuse (.shortList least paths.length) value else return paths

/-- Reads a part of the project. -/
def workspace : Json → Checked Workspace := Schema.choice Workspace.name Workspace.all

/-- Reads a part of the project that holds code. -/
def codeWorkspace : Json → Checked Workspace := Schema.ruled Workspace.codeFlaw? workspace

/-- Reads the kind of an analysis of code. -/
def codeAnalysis : Json → Checked CodeAnalysis := Schema.choice CodeAnalysis.name CodeAnalysis.all

/-- Reads the kind of an analysis of infrastructure. -/
def infraAnalysis : Json → Checked InfraAnalysis :=
  Schema.choice InfraAnalysis.name InfraAnalysis.choices

/-! ## Forms -/

namespace InputForm

/-- The name of a form. -/
def name : InputForm → String
  | none => "OperationInput"
  | rules => "ListPolicyRulesInput"
  | documents => "ListPolicyDocumentsInput"
  | custom => "CustomStaticAnalysisInput"
  | code => "StaticAnalysisInput"
  | infra => "InfraStaticAnalysisInput"
  | exports => "UnusedExportsInput"
  | review => "QualitativeReviewInput"

/-- All forms. -/
def all : List InputForm := [none, rules, documents, custom, code, infra, exports, review]

/-- The fields of a form, in order. -/
def fields : InputForm → List Names
  | none => []
  | rules => [workspaceNames]
  | documents => [categoryNames]
  | custom => [workspaceNames, targetNames]
  | code => [workspaceNames, targetNames, analysisNames]
  | infra => [targetNames, analysisNames, deepNames]
  | exports => [workspaceNames, targetNames]
  | review => [policyNames, fileNames]

/-- The parameters that the members of a form give. -/
def params (members : List (String × Json)) : InputForm → Form Params
  | none => return .none
  | rules => return .rules (← Form.field members workspaceNames (Schema.optional workspace) .none)
  | documents =>
    return .documents (← Form.field members categoryNames (Schema.optional Schema.text) .none)
  | custom => do
    let workspace ← Form.required members workspaceNames workspace
    return .custom workspace (← Form.required members targetNames (absolutePaths 1))
  | code => do
    let workspace ← Form.required members workspaceNames codeWorkspace
    let targets ← Form.required members targetNames (absolutePaths 1)
    return .code workspace targets (← Form.field members analysisNames codeAnalysis .both)
  | infra => do
    let targets ← Form.required members targetNames (absolutePaths 1)
    let analysis ← Form.field members analysisNames infraAnalysis .all
    return .infra targets analysis (← Form.field members deepNames Schema.truth false)
  | exports => do
    let workspace ← Form.required members workspaceNames codeWorkspace
    return .exports workspace (← Form.field members targetNames (absolutePaths 0) [])
  | review => do
    let policy ← Form.required members policyNames (Schema.textOf 1)
    return .review policy (← Form.required members fileNames (absolutePaths 1))

/-- Reads arguments; what stands for nothing counts as no arguments. -/
def read (form : InputForm) (arguments : Json) : Checked Params :=
  let filled := fun members => do
    let params ← form.params members
    Form.closed members form.fields
    return params
  Schema.ofObject form.name filled (arguments.orElse (.obj []))

/-- A form with its name and its reader. -/
def toForm (form : InputForm) : ArgumentForm Params := ⟨form.name, form.read⟩

end InputForm

end Lintel.Operation
