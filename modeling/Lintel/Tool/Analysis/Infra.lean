import Lintel.Tool.Analysis.Code
import Lintel.Tool.Terraform

/-!
# Analysis of infrastructure

The formatter, the linter and the security scanner look at all Terraform files, one after the other;
what they find is narrowed to the target directories (`formatReport`, `configReport`, `securityReport`).
-/

namespace Lintel.Tool

open Files (Path View)

/-- Which analyses of infrastructure to make. -/
inductive InfraAnalysis where
  | format
  | lint
  | security
  | all
  deriving DecidableEq, Repr

namespace InfraAnalysis

/-- The word for a choice of analyses. -/
def name : InfraAnalysis → String
  | format => "format"
  | lint => "lint"
  | security => "security"
  | all => "all"

/-- All choices. -/
def choices : List InfraAnalysis := [format, lint, security, all]

/-- A single analysis is part of a choice. -/
def includes (analysis single : InfraAnalysis) : Bool := analysis == single || analysis == all

end InfraAnalysis

/-- The outcome of the analyses of infrastructure. -/
structure InfraReport where
  targets : List String
  deep : Bool := false
  format : Option (ToolReport FormatIssue) := none
  lint : Option (ToolReport ConfigIssue) := none
  security : Option (ToolReport SecurityIssue) := none
  error : Option String := none

/-- Nothing went wrong, and every tool that was run passed. -/
def InfraReport.success (report : InfraReport) : Bool :=
  report.error.isNone && report.format.all (·.passed) && report.lint.all (·.passed)
    && report.security.all (·.passed)

/-! ## Format -/

/-- The command of the formatter. -/
def formatWords : List String := ["terraform", "fmt", "-check", "-recursive", "-list=true"]

/-- The issue with the place of its file, if that is within the targets. -/
def FormatIssue.narrow? (view : View) (directory : Path) (targets : List String)
    (issue : FormatIssue) : Except Fault (Option FormatIssue) := do
  if ← Files.isWithin view directory targets issue.file then
    return some ⟨Files.placeText (← Files.resolveFrom view directory issue.file)⟩
  else return none

/-- The fault of a formatter that fails and lists no file. -/
def silentFormat (printed : Printed) : Fault :=
  let code := Number.intText printed.exit
  let reason := Text.trim printed.err
  .badOutput "terraform fmt" (.shape s!"terraform fmt exited with code {code}: {reason}") printed.all

/-- The report about what the formatter printed. -/
def formatReport (view : View) (directory : Path) (targets : List String) (printed : Printed) :
    Except Fault (ToolReport FormatIssue) := do
  if printed.exit == 0 then
    let output :=
      if printed.all.isEmpty then "All files are properly formatted." else printed.all
    return { tool := "terraform fmt", passed := true, output }
  else
    let found := FormatIssue.ofOutput printed.out
    if found.isEmpty then throw (silentFormat printed)
    let issues := (← found.mapM (FormatIssue.narrow? view directory targets)).filterMap id
    return { tool := "terraform fmt", passed := issues.isEmpty, issues, output := printed.all }

/-! ## Lint -/

/-- The command that prepares the linter. -/
def configInitWords : List String := ["tflint", "--init"]

/-- The settings of the linter. -/
def configFile (deep : Bool) : String := if deep then ".tflint.deep.hcl" else ".tflint.hcl"

/-- The command of the linter, with its settings if they are there. -/
def configWords (view : View) (directory : Path) (deep : Bool) : List String :=
  let config := directory.child (configFile deep)
  let settings := if view.isFile config then ["--config=" ++ config.text] else []
  ["tflint", "--recursive", "--format=json"] ++ settings

/-- The texts of some values, each of which has to be one. -/
def textsFrom (index : Nat) : List Json → Except Fault (List String)
  | [] => .ok []
  | .str s :: rest => (textsFrom (index + 1) rest).map (s :: ·)
  | other :: _ => .error (.notText index other.typeName)

/-- The errors of the linter in one text, if there are any. -/
def joinedErrors (errors : List Json) : Except Fault (Option String) := do
  let text := "; ".intercalate (← textsFrom 0 errors)
  return if text.isEmpty then none else some text

/-- The report about what the linter printed. -/
def configReport (view : View) (directory : Path) (targets : List String) (printed : Printed) :
    Except Fault (ToolReport ConfigIssue) := do
  let (found, errors) ← withOutput printed (ConfigIssue.ofOutput printed.out)
  let issues ← narrowTo view directory targets ConfigIssue.file found
  let passed := errors.isEmpty && !issues.any (·.severity == "error")
  let error ← joinedErrors errors
  return { tool := "tflint", passed, issues, output := printed.all, error }

/-- The reason why the linter could not be prepared. -/
def unprepared (printed : Printed) : Unrun :=
  ⟨"tflint --init failed: " ++ Text.trim printed.all, " ".intercalate configInitWords⟩

/-- Prepares the linter and runs it. -/
def lintConfig {m : Type → Type} [Monad m] (run : Runner m) (view : View) (directory : Path)
    (targets : List String) (deep : Bool) : m (Except Fault (ToolReport ConfigIssue)) := do
  let judge := configReport view directory targets
  match ← run ⟨configInitWords, directory⟩ with
  | .error unrun => return guarded "tflint" (.error unrun) judge
  | .ok printed =>
    if printed.exit != 0 then return guarded "tflint" (.error (unprepared printed)) judge
    else
      let answer ← run ⟨configWords view directory deep, directory⟩
      return guarded "tflint" answer judge

/-- Prepares the linter and runs it, if that is wanted. -/
def lintConfigIf {m : Type → Type} [Monad m] (wanted : Bool) (run : Runner m) (view : View)
    (directory : Path) (targets : List String) (deep : Bool) :
    m (Except Fault (Option (ToolReport ConfigIssue))) := do
  if wanted then
    let report ← lintConfig run view directory targets deep
    return report.map some
  else return .ok none

/-! ## Security -/

/-- The command of the security scanner. -/
def securityWords : List String := ["trivy", "config", "--format=json", "."]

/-- The report about what the security scanner printed. -/
def securityReport (view : View) (directory : Path) (targets : List String) (printed : Printed) :
    Except Fault (ToolReport SecurityIssue) := do
  let found ← withOutput printed (SecurityIssue.ofOutput printed.out)
  let issues ← narrowTo view directory targets SecurityIssue.file found
  return { tool := "trivy", passed := issues.isEmpty, issues, output := printed.all }

/-! ## All -/

/-- Does the next step unless one before was at fault. -/
def andThen {m : Type → Type} [Monad m] {α β : Type} (result : Except Fault α)
    (next : α → m (Except Fault β)) : m (Except Fault β) :=
  match result with
  | .ok value => next value
  | .error fault => return .error fault

/-- Makes the analyses of infrastructure below a directory. -/
def analyzeInfra {m : Type → Type} [Monad m] (run : Runner m) (view : View) (directory : Path)
    (targets : List String) (analysis : InfraAnalysis) (deep : Bool) :
    m (Except Fault InfraReport) := do
  match view.askDir directory with
  | .error fault => return .error fault
  | .ok false =>
    let error := "Terraform root not found: " ++ directory.text
    return .ok { targets, deep, error := some error }
  | .ok true =>
    let format ← runIf (analysis.includes .format) run "terraform fmt" ⟨formatWords, directory⟩
      (formatReport view directory targets)
    andThen format fun format => do
      let lint ← lintConfigIf (analysis.includes .lint) run view directory targets deep
      andThen lint fun lint => do
        let security ← runIf (analysis.includes .security) run "trivy" ⟨securityWords, directory⟩
          (securityReport view directory targets)
        return security.map fun security => { targets, deep, format, lint, security }

end Lintel.Tool
