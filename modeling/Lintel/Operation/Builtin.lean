import Lintel.Operation.Registry
import Lintel.Report.Catalog
import Lintel.Report.Check
import Lintel.Report.Review
import Lintel.Review.Batch
import Lintel.Settings.Basic

/-!
# The built-in operations

The operations list the rules and the policies, check files against the rules, run the tools of the
project, and review files with a chat model (`Registry.builtin`). They share the loaded rules, the known
entities and what the model remembers (`Shared`).
-/

namespace Lintel.Operation

open Files (View)
open Tool (CodeAnalysis InfraAnalysis)

/-- What operations keep from one to the next. -/
structure Shared (σ : Type) where
  store : Policy.RuleStore
  entities : Project.EntityIndex
  memory : σ

/-- What operations work with: the settings, the files, a reader of source text, a runner of commands and
a chat model. -/
structure Context (m : Type → Type) (σ : Type) where
  settings : Settings
  view : View
  reading : Check.Reading
  run : Tool.Runner m
  model : Except Fault (Review.Talk.Model σ)

/-- What operations share at the beginning. -/
def Shared.ofSettings {σ : Type} (settings : Settings) (memory : σ) : Shared σ where
  store := ⟨settings.policyRoot, []⟩
  entities := .ofProject settings.projectRoot settings.modelDir
  memory := memory

/-- An effect on what operations share, besides those of commands. -/
abbrev Work (m : Type → Type) (σ : Type) := StateT (Shared σ) m

namespace Context

variable {m : Type → Type} [Monad m] {σ : Type}

/-- How much of the output of a tool a report shows. -/
def outputLimit (context : Context m σ) : Int := max (context.settings.maxOutput / 4) 1

/-- How long reports may be. -/
def room (context : Context m σ) : Registry.Room :=
  ⟨context.settings.maxOutput, context.settings.tailRatio⟩

/-- Lists the rules. -/
def listRules (context : Context m σ) (workspace : Option Workspace) : Except Fault String := do
  let all ← Policy.catalog context.view context.settings.policyRoot
  return Report.rules (all.filter fun w => workspace.all (·.name == w.name))

/-- Lists the policies. -/
def listDocuments (context : Context m σ) (category : Option String) : Except Fault String := do
  let root := context.settings.policyDocsRoot
  return Report.policies context.view
    (← Policy.scanDocuments context.view root (category.getD ""))

/-- Checks files against the rules of a workspace. -/
def checkRules (context : Context m σ) (workspace : Workspace) (targets : List String) :
    Work m σ (Except Fault String) := do
  let shared ← get
  match shared.store.load context.view (some workspace.name) with
  | .error fault => return .error fault
  | .ok (loaded, store) =>
    let (found, entities) :=
      Check.run context.view context.reading loaded.rules targets (some shared.entities)
    set { shared with store, entities := entities.getD shared.entities }
    return found.map fun outcome => Report.check outcome targets (some (.of loaded))

/-- Analyses the code of a workspace. -/
def analyzeCode (context : Context m σ) (workspace : Workspace) (targets : List String)
    (analysis : CodeAnalysis) : Work m σ (Except Fault String) := do
  let report ← monadLift (Tool.analyzeCode context.run context.view context.settings.projectRoot
    workspace.name targets analysis)
  return report.map (Report.codeAnalysis context.outputLimit)

/-- Analyses the infrastructure. -/
def analyzeInfra (context : Context m σ) (targets : List String) (analysis : InfraAnalysis)
    (deep : Bool) : Work m σ (Except Fault String) := do
  let report ← monadLift (Tool.analyzeInfra context.run context.view context.settings.infraRoot
    targets analysis deep)
  return report.map (Report.infraAnalysis context.outputLimit)

/-- Looks for unused exports in a workspace. -/
def analyzeExports (context : Context m σ) (workspace : Workspace) (targets : List String) :
    Work m σ (Except Fault String) := do
  let report ← monadLift (Tool.analyzeExports context.run context.view
    context.settings.projectRoot workspace.name targets)
  return report.map Report.exportsAnalysis

/-- Reviews files against a policy. -/
def review (context : Context m σ) (policy : String) (files : List String) :
    Work m σ (Except Fault String) := do
  let settings := context.settings
  let shared ← get
  match Review.reviewAll (settings.toolset context.view) settings.limits settings.bounds
    context.model shared.memory settings.policyDocsRoot policy files with
  | .error fault => return .error fault
  | .ok reviewed =>
    set { shared with memory := reviewed.memory }
    return .ok (Report.review reviewed.batch)

/-- Does what parameters ask for. -/
def handle (context : Context m σ) : Params → Work m σ (Except Fault String)
  | .none => return .ok ""
  | .rules workspace => return context.listRules workspace
  | .documents category => return context.listDocuments category
  | .custom workspace targets => context.checkRules workspace targets
  | .code workspace targets analysis => context.analyzeCode workspace targets analysis
  | .infra targets analysis deep => context.analyzeInfra targets analysis deep
  | .exports workspace targets => context.analyzeExports workspace targets
  | .review policy files => context.review policy files

end Context

/-- The id, the title, the description and the form of each built-in operation. -/
def builtin : List (String × String × String × InputForm) :=
  [("list_policy_rules", "Policy rules",
      "List the AST policy rules by workspace and layer, with their descriptions.", .rules),
    ("list_policy_documents", "Policy documents",
      "List the narrative policies available for qualitative review.", .documents),
    ("review_custom_static_analysis", "Custom static analysis",
      "Check TypeScript files in the target directories against the workspace's AST policy rules.",
      .custom),
    ("review_static_analysis", "Static analysis",
      "Run the TypeScript compiler and/or ESLint, narrowed to the target directories.", .code),
    ("review_infra_static_analysis", "Infra static analysis",
      "Run terraform fmt, TFLint and/or Trivy, narrowed to the target directories.", .infra),
    ("review_unused_exports", "Unused exports", "Detect exports nothing imports, using knip.",
      .exports),
    ("review_qualitative", "Qualitative review",
      "Review files against a narrative policy with a tool-using model.", .review)]

end Lintel.Operation

namespace Lintel

/-- The registry of the built-in operations. -/
def Registry.builtin {m : Type → Type} [Monad m] {σ : Type} (context : Operation.Context m σ) :
    Registry (Operation.Work m σ) Operation.Params :=
  ⟨Operation.builtin.map fun (id, title, description, form) =>
    ⟨id, title, description, form.toForm, context.handle⟩⟩

end Lintel
