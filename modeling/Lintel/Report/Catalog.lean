import Lintel.Policy.Documents
import Lintel.Report.Lines

/-!
# Reports on the catalogs

The reports that list the rules (`rules`) and the policies (`policies`).
-/

namespace Lintel.Report

open Files (View)
open Policy (CatalogLayer CatalogRule CatalogWorkspace)

/-! ## Rules -/

/-- The line about a rule. -/
def ruleLine (workspace layer : String) (rule : CatalogRule) : String :=
  let description := if rule.description.isEmpty then "(no description)" else rule.description
  "- " ++ code s!"{workspace}/{layer}/{rule.id}" ++ ": " ++ description

/-- The section about a layer. -/
def layerLines (workspace : String) (layer : CatalogLayer) : List String :=
  ["### " ++ layer.name, ""] ++ layer.rules.map (ruleLine workspace layer.name) ++ [""]

/-- The section about a workspace. -/
def workspaceLines (workspace : CatalogWorkspace) : List String :=
  ["## " ++ workspace.name, ""] ++ workspace.layers.flatMap (layerLines workspace.name)

/-- The report that lists the rules. -/
def rules (workspaces : List CatalogWorkspace) : String :=
  let none_ := workspaces.all fun w => w.layers.all (·.rules.isEmpty)
  Text.unlines (["# Policy rules", ""] ++ workspaces.flatMap workspaceLines
    ++ if none_ then ["No rules found.", ""] else [])

/-! ## Policies -/

/-- The section about a policy. -/
def policyLines (view : View) (policy : Lintel.Policy) : List String :=
  let needed := policy.about.dependencies
  [s!"## {policy.qualifiedId}: {policy.about.label}", "", policy.about.description, ""]
    ++ (if needed.isEmpty then [] else ["- Depends on: " ++ ", ".intercalate needed])
    ++ (policy.documents view).map ("- " ++ ·.name) ++ [""]

/-- The report that lists the policies. -/
def policies (view : View) (found : List Lintel.Policy) : String :=
  Text.unlines (["# Policy documents", ""]
    ++ (if found.isEmpty then ["No policy documents found.", ""] else [])
    ++ found.flatMap (policyLines view))

end Lintel.Report
