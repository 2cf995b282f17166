import Lintel.Json.Access
import Lintel.Json.Text

/-!
# Reports of tools

A tool passes or not, with the issues that remain, what it printed, and an error if it could not be run
or understood (`ToolReport`). Tools that print JSON share the first step of reading it (`readOutput`).
-/

namespace Lintel.Tool

/-- The outcome of one tool. -/
structure ToolReport (issue : Type) where
  tool : String
  passed : Bool
  issues : List issue := []
  output : String := ""
  error : Option String := none

/-- The report of a tool that could not be run or understood. -/
def ToolReport.failure {issue : Type} (tool error output : String) : ToolReport issue where
  tool := tool
  passed := false
  output := output
  error := some error

/-- The JSON value that a tool printed; `label` names the tool in messages. -/
def readOutput (label tool output : String) : Except Fault Json :=
  if (Text.trimChars output.toList).isEmpty then .error (.badOutput tool (.nothing label) "")
  else
    match Json.parse output.toList with
    | .ok value => .ok value
    | .error (.longInteger digits) => .error (.longInteger digits)
    | .error (.misplaced fault) => .error (.badOutput tool (.notJson label fault) "")

end Lintel.Tool
