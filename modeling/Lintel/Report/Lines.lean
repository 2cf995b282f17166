import Lintel.Report.Truncate
import Lintel.Text.Lines

/-!
# Lines of reports

What the reports have in common: the mark of an outcome, the list of targets, the output of a tool, the
section for an error. A report is made line by line.
-/

namespace Lintel.Report

/-- The mark of an outcome. -/
def status (passed : Bool) : String := if passed then "✅ Passed" else "❌ Failed"

/-- The line with the mark of an outcome. -/
def statusLine (passed : Bool) : String := "- **Status**: " ++ status passed

/-- The text of a count. -/
def countText (n : Nat) : String := Number.intText n

/-- The section about the targets. -/
def targetLines (targets : List String) : List String :=
  ["## Target directories", ""]
    ++ (if targets.isEmpty then ["- (all)"] else targets.map ("- " ++ ·)) ++ [""]

/-- The text in at most `limit` characters, with the usual share for its end. -/
def bounded (limit : Int) (text : String) : String :=
  (truncate text limit defaultTailRatio).toOption.getD ""

/-- The text without the line feeds at its end. -/
def withoutLastBreaks (text : String) : String :=
  String.ofList (text.toList.reverse.dropWhile (· == '\n')).reverse

/-- The output of a tool as a block of code. -/
def codeBlock (limit : Int) (output : String) : List String :=
  ["\x60\x60\x60", bounded limit (withoutLastBreaks output), "\x60\x60\x60", ""]

/-- The section about an error. -/
def errorLines (message : String) : List String := ["", "## Error", "", message, ""]

/-- The report about a failure of the whole. -/
def failure (title message : String) : String :=
  Text.unlines (["# " ++ title, "", statusLine false] ++ errorLines message)

/-- The text as code. -/
def code (text : String) : String := "\x60" ++ text ++ "\x60"

end Lintel.Report
