import Lintel.Tool.Report

/-!
# Lint messages

The linter prints a list with one entry per file, each with its messages (`LintIssue.ofOutput`). A
message of severity two is an error, any other a warning. Names and texts are passed on as they come.
-/

namespace Lintel.Tool

/-- A message of the linter. -/
structure LintIssue where
  file : Json
  line : Int
  column : Int
  rule : Json
  severity : String
  message : Json

/-- The issue is an error. -/
def LintIssue.isError (issue : LintIssue) : Bool := issue.severity == "error"

/-- The word for the severity that a value stands for. -/
def severityWord (isError : Bool) : String := if isError then "error" else "warning"

/-- The value is the number two. -/
def isTwo : Json → Bool
  | .int n => n == 2
  | .float x => x.same (.ofInt 2)
  | _ => false

/-- A message of the linter about a file. -/
def LintIssue.ofMessage (file message : Json) : Except Fault LintIssue := do
  let line ← message.getNumber "line"
  let column ← message.getNumber "column"
  let rule ← message.get "ruleId" .null
  let severity ← message.get "severity" .null
  let text ← message.getField "message"
  return ⟨file, line, column, rule.orElse (.str ""), severityWord (isTwo severity), text⟩

/-- The messages about one file. -/
def LintIssue.ofEntry (entry : Json) : Except Fault (List LintIssue) :=
  match entry with
  | .obj _ => do
    let file ← entry.getField "filePath"
    let messages ← (← entry.get "messages" (.arr [])).elements
    messages.mapM (LintIssue.ofMessage file)
  | _ => .error (.badOutput "eslint" (.shape "ESLint result entry is not an object") "")

/-- The messages in the output of the linter, in the order of the output. -/
def LintIssue.ofOutput (output : String) : Except Fault (List LintIssue) := do
  match ← readOutput "ESLint" "eslint" output with
  | .arr entries => return (← entries.mapM LintIssue.ofEntry).flatten
  | _ => throw (.badOutput "eslint" (.shape "ESLint output is not a result array") "")

end Lintel.Tool
