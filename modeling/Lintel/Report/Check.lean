import Lintel.Check.Run
import Lintel.Policy.Loader
import Lintel.Report.Lines

/-!
# The report on a run of rules

The report tells how a run ended, which violations it found, and what went wrong on the way (`check`).
-/

namespace Lintel.Report

open Check (Outcome RuleError)
open Rule (Violation)

/-- How rules were loaded: their number, and the messages of what could not be loaded. -/
structure Loading where
  rules : Nat
  errors : List String

/-- How some rules were loaded. -/
def Loading.of (loaded : Policy.LoadedRules) : Loading :=
  ⟨loaded.rules.length, loaded.faults.map Fault.message⟩

/-- The lines about a violation. -/
def violationLines (v : Violation) : List String :=
  let line := countText v.line
  let column := countText v.column
  [s!"- **{v.file}:{line}:{column}** [{v.severity.name}] " ++ code v.rule]
    ++ (Text.lines v.message).map ("  " ++ ·)
    ++ (if v.what.isEmpty then [] else ["  - What: " ++ v.what])
    ++ (if v.why.isEmpty then [] else ["  - Why: " ++ v.why])

/-- The section about the violations. -/
def violationSection (violations : List Violation) : List String :=
  if violations.isEmpty then ["No violations found.", ""]
  else ["## Violations", ""] ++ violations.flatMap violationLines ++ [""]

/-- The section with a title, if there is something to say. -/
def sectionOf (title : String) (lines : List String) : List String :=
  if lines.isEmpty then [] else ["## " ++ title, ""] ++ lines ++ [""]

/-- The line about a rule that broke down. -/
def ruleErrorLine (e : RuleError) : String := "- " ++ code e.rule ++ s!" on {e.file}: {e.error}"

/-- The report on a run, perhaps with how its rules were loaded. -/
def check (outcome : Outcome) (targets : List String) (loading : Option Loading) : String :=
  let loadErrors := (loading.map (·.errors)).getD []
  let errors := outcome.errors.length + loadErrors.length
  let loaded := loading.map fun l => "- Rules loaded: " ++ countText l.rules
  Text.unlines (
    ["# Custom static analysis", "", "## Summary", "",
     statusLine (outcome.success && loadErrors.isEmpty)]
    ++ loaded.toList
    ++ ["- Files checked: " ++ countText outcome.filesChecked,
        "- Violations: " ++ countText outcome.violations.length]
    ++ (if errors == 0 then [] else ["- Tooling errors: " ++ countText errors])
    ++ [""] ++ targetLines targets
    ++ violationSection outcome.violations
    ++ sectionOf "Rule load errors" (loadErrors.map ("- " ++ ·))
    ++ sectionOf "Rule errors" (outcome.errors.map ruleErrorLine))

end Lintel.Report
