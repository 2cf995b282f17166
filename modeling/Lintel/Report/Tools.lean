import Lintel.Report.Lines
import Lintel.Tool.Analysis.Exports
import Lintel.Tool.Analysis.Infra

/-!
# Reports on analyses by tools

The reports on the analysis of code (`codeAnalysis`), of infrastructure (`infraAnalysis`) and of
exports (`exportsAnalysis`). The output of a tool is shown only if the tool failed.
-/

namespace Lintel.Report

open Number (intText)
open Tool (CodeReport ConfigIssue Diagnostic ExportsReport FormatIssue InfraReport LintIssue
  SecurityIssue ToolReport UnusedExport)

/-! ## Tools -/

/-- The number of characters of output that a report shows if nothing else is said. -/
def defaultOutputLimit : Int := 5000

/-- The section about one tool. -/
def toolLines {issue : Type} (title : String) (limit : Int) (line : issue → String)
    (report : ToolReport issue) : List String :=
  let error := report.error.getD ""
  [s!"## {title}", "", statusLine report.passed, "- Issues: " ++ countText report.issues.length, ""]
    ++ (if error.isEmpty then [] else ["### Error", "", error, ""])
    ++ (if report.issues.isEmpty then []
        else ["### Issues", ""] ++ report.issues.map line ++ [""])
    ++ (if report.output.isEmpty || report.passed then []
        else ["### Output", ""] ++ codeBlock limit report.output)

/-- The line of a summary that counts the issues of a tool. -/
def countLine {issue : Type} (label : String) (report : ToolReport issue) : String :=
  let count := countText report.issues.length
  s!"- {label}: {status report.passed} ({count} issues)"

/-- A report whose analysis was made or not. -/
def analysisReport (title : String) (error : Option String) (success : Bool) (summary sections :
    List String) (targets : List String) : String :=
  let reason := error.getD ""
  let head := [title, "", "## Summary", ""]
  Text.unlines (
    if reason.isEmpty then
      head ++ [statusLine success] ++ summary ++ [""] ++ targetLines targets ++ sections
    else head ++ [statusLine false] ++ errorLines reason)

/-! ## Code -/

/-- The line about a diagnostic. -/
def diagnosticLine (d : Diagnostic) : String :=
  let line := intText d.line
  let column := intText d.column
  s!"- **{d.file}:{line}:{column}** " ++ code d.code ++ " " ++ d.message

/-- The line about a message of the linter. -/
def lintLine (i : LintIssue) : String :=
  let line := intText i.line
  let column := intText i.column
  s!"- **{i.file.shown}:{line}:{column}** [{i.severity}] "
    ++ code (i.rule.orElse (.str "-")).shown ++ " " ++ i.message.shown

/-- The line of the summary about the linter. -/
def lintSummary (report : ToolReport LintIssue) : String :=
  let errors := (report.issues.filter (·.isError)).length
  let warnings := report.issues.length - errors
  s!"- Lint: {status report.passed} ({countText errors} errors, {countText warnings} warnings)"

/-- The report on the analysis of code. -/
def codeAnalysis (limit : Int) (report : CodeReport) : String :=
  analysisReport s!"# Static analysis ({report.workspace})" report.error report.success
    ((report.typeCheck.map (countLine "Type check")).toList ++ (report.lint.map lintSummary).toList)
    ((report.typeCheck.map (toolLines "Type check" limit diagnosticLine)).getD []
      ++ (report.lint.map (toolLines "Lint" limit lintLine)).getD [])
    report.targets

/-! ## Infrastructure -/

/-- The line about a file that is not well formatted. -/
def formatLine (i : FormatIssue) : String := s!"- {i.file}: not properly formatted"

/-- The line about an issue of the linter. -/
def configLine (i : ConfigIssue) : String :=
  s!"- **{i.file.shown}:{intText i.line}** [{i.severity}] " ++ code i.rule.shown ++ " "
    ++ i.message.shown

/-- The lines about a misconfiguration. -/
def securityLine (i : SecurityIssue) : String :=
  s!"- **[{i.tier.name}] {i.id.shown}** {i.title.shown} ({i.file.shown})\n  - {i.message.shown}"
    ++ if i.resolution.isVoid then "" else "\n  - Resolution: " ++ i.resolution.shown

/-- The report on the analysis of infrastructure. -/
def infraAnalysis (limit : Int) (report : InfraReport) : String :=
  analysisReport ("# Infra static analysis" ++ if report.deep then " (deep)" else "")
    report.error report.success
    ((report.format.map (countLine "Format")).toList ++ (report.lint.map (countLine "TFLint")).toList
      ++ (report.security.map (countLine "Trivy")).toList)
    ((report.format.map (toolLines "Format (terraform fmt)" limit formatLine)).getD []
      ++ (report.lint.map (toolLines "Lint (TFLint)" limit configLine)).getD []
      ++ (report.security.map (toolLines "Security (Trivy)" limit securityLine)).getD [])
    report.targets

/-! ## Exports -/

/-- The line about an unused export. -/
def exportLine (e : UnusedExport) : String :=
  let line := intText e.line
  let column := intText e.column
  "- " ++ code e.name.shown ++ s!" at {e.file}:{line}:{column}"

/-- The section about the unused exports. -/
def exportLines (exports : List UnusedExport) : List String :=
  if exports.isEmpty then ["No unused exports found.", ""]
  else ["## Details", ""] ++ exports.map exportLine ++ [""]

/-- The report on the analysis of exports. -/
def exportsAnalysis (report : ExportsReport) : String :=
  analysisReport s!"# Unused exports ({report.workspace})" report.error report.success
    ["- Unused exports: " ++ countText report.exports.length] (exportLines report.exports)
    report.targets

end Lintel.Report
