import Lintel.Files.Within
import Lintel.Tool.Report

/-!
# Commands

An analysis runs commands and judges what they print. How a command is run is up to the caller: a
`Runner` answers a command with what it printed, or with the reason why it could not be run.
-/

namespace Lintel.Tool

open Files (Path)

/-- A program with its arguments, and the directory to run it in. -/
structure Command where
  words : List String
  directory : Path

/-- The words of a command on one line. -/
def Command.line (command : Command) : String := " ".intercalate command.words

/-- What a command printed, and how it ended. -/
structure Printed where
  exit : Int
  out : String := ""
  err : String := ""
  deriving DecidableEq, Repr

/-- Everything that a command printed, its regular output first. -/
def Printed.all (printed : Printed) : String :=
  if printed.out.isEmpty then printed.err
  else if printed.err.isEmpty then printed.out
  else printed.out ++ "\n" ++ printed.err

/-- Why a command could not be run to its end. -/
structure Unrun where
  message : String
  command : String := ""
  deriving DecidableEq, Repr

/-- What becomes of a command. -/
abbrev Answer := Except Unrun Printed

/-- A way to run commands. -/
abbrev Runner (m : Type → Type) := Command → m Answer

/-- The report of a tool whose output cannot be used tells what the tool printed. -/
def withOutput {α : Type} (printed : Printed) (result : Except Fault α) : Except Fault α :=
  match result with
  | .error (.badOutput tool cause _) => .error (.badOutput tool cause printed.all)
  | other => other

/-- The report about an answer: a command that was not run and output that cannot be used are failures
of the tool; other faults are passed on. -/
def guarded {issue : Type} (tool : String) (answer : Answer)
    (judge : Printed → Except Fault (ToolReport issue)) : Except Fault (ToolReport issue) :=
  match answer with
  | .error unrun => .ok (.failure tool unrun.message "")
  | .ok printed =>
    match judge printed with
    | .error (.toolFailed message _) => .ok (.failure tool message "")
    | .error (.badOutput _ cause printed) => .ok (.failure tool cause.message printed)
    | other => other

end Lintel.Tool
