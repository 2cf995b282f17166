import Lintel.Tool.Command
import Lintel.Tool.Diagnostic
import Lintel.Tool.Lint

/-!
# Analysis of code

The type checker and the linter look at a whole workspace; what they find is narrowed to the target
directories (`typeCheckReport`, `lintReport`).
-/

namespace Lintel.Tool

open Files (Path View)

/-- Which analyses of code to make. -/
inductive CodeAnalysis where
  | typeCheck
  | lint
  | both
  deriving DecidableEq, Repr

namespace CodeAnalysis

/-- The word for a choice of analyses. -/
def name : CodeAnalysis → String
  | typeCheck => "type-check"
  | lint => "lint"
  | both => "both"

/-- All choices. -/
def all : List CodeAnalysis := [typeCheck, lint, both]

/-- The types are checked. -/
def checksTypes (analysis : CodeAnalysis) : Bool := analysis != lint

/-- The linter is run. -/
def lints (analysis : CodeAnalysis) : Bool := analysis != typeCheck

end CodeAnalysis

/-- The outcome of the analyses of code. -/
structure CodeReport where
  workspace : String
  targets : List String
  typeCheck : Option (ToolReport Diagnostic) := none
  lint : Option (ToolReport LintIssue) := none
  error : Option String := none

/-- Nothing went wrong, and every tool that was run passed. -/
def CodeReport.success (report : CodeReport) : Bool :=
  report.error.isNone && report.typeCheck.all (·.passed) && report.lint.all (·.passed)

/-! ## Type check -/

/-- The command of the type checker. -/
def typeCheckWords : List String := ["npx", "tsc", "--noEmit", "--pretty", "false"]

/-- The diagnostic with the place of its file, if that is within the targets. -/
def Diagnostic.narrow? (view : View) (directory : Path) (targets : List String)
    (diagnostic : Diagnostic) : Except Fault (Option Diagnostic) := do
  if ← Files.isWithin view directory targets diagnostic.file then
    let place ← Files.resolveFrom view directory diagnostic.file
    return some { diagnostic with file := Files.placeText place }
  else return none

/-- The fault of a type checker that fails and does not say why. -/
def silentTypeCheck (printed : Printed) : Fault :=
  let code := Number.intText printed.exit
  .badOutput "tsc" (.shape s!"tsc exited with code {code} but reported no parseable errors")
    printed.all

/-- The report about what the type checker printed. -/
def typeCheckReport (view : View) (directory : Path) (targets : List String) (printed : Printed) :
    Except Fault (ToolReport Diagnostic) := do
  if printed.exit == 0 then
    let output := if printed.all.isEmpty then "No type errors found." else printed.all
    return { tool := "tsc", passed := true, output }
  else
    let found ← Diagnostic.ofOutput printed.all
    if found.isEmpty then throw (silentTypeCheck printed)
    let issues := (← found.mapM (Diagnostic.narrow? view directory targets)).filterMap id
    return { tool := "tsc", passed := issues.isEmpty, issues, output := printed.all }

/-! ## Lint -/

/-- The command of the linter. -/
def lintWords : List String := ["npx", "eslint", "--format", "json", "."]

/-- The issues whose file is within the targets. -/
def narrowTo {issue : Type} (view : View) (directory : Path) (targets : List String)
    (file : issue → Json) (issues : List issue) : Except Fault (List issue) := do
  let kept ← issues.mapM fun i => do
    return if ← Files.isValueWithin view directory targets (file i) then some i else none
  return kept.filterMap id

/-- The report about what the linter printed. -/
def lintReport (view : View) (directory : Path) (targets : List String) (printed : Printed) :
    Except Fault (ToolReport LintIssue) := do
  let found ← withOutput printed (LintIssue.ofOutput printed.out)
  let issues ← narrowTo view directory targets LintIssue.file found
  return { tool := "eslint", passed := !issues.any (·.isError), issues, output := printed.all }

/-! ## Both -/

/-- Runs a tool if it is wanted. -/
def runIf {m : Type → Type} [Monad m] {issue : Type} (wanted : Bool) (run : Runner m) (tool : String)
    (command : Command) (judge : Printed → Except Fault (ToolReport issue)) :
    m (Except Fault (Option (ToolReport issue))) := do
  if wanted then
    let answer ← run command
    return (guarded tool answer judge).map some
  else return .ok none

/-- Makes the analyses of code in a workspace. -/
def analyzeCode {m : Type → Type} [Monad m] (run : Runner m) (view : View) (root : Path)
    (workspace : String) (targets : List String) (analysis : CodeAnalysis) :
    m (Except Fault CodeReport) := do
  let directory := root.join (.ofString workspace)
  match view.askDir directory with
  | .error fault => return .error fault
  | .ok false =>
    let error := "Workspace directory not found: " ++ directory.text
    return .ok { workspace, targets, error := some error }
  | .ok true =>
    let typeCheck ← runIf analysis.checksTypes run "tsc" ⟨typeCheckWords, directory⟩
      (typeCheckReport view directory targets)
    let lint ← runIf analysis.lints run "eslint" ⟨lintWords, directory⟩
      (lintReport view directory targets)
    return do return { workspace, targets, typeCheck := ← typeCheck, lint := ← lint }

end Lintel.Tool
