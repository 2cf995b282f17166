import Lintel.Tool.Command

/-!
# Scripted commands

A scripted runner answers commands from a script: an entry answers the first command whose line starts
with the text of the entry, and is then used up (`Script.run`). Analyses can be tried out with it.
-/

namespace Lintel.Tool

/-- An answer and the text that its command starts with. -/
structure ScriptEntry where
  start : String
  answer : Answer

/-- What is left of a script, and the commands that were run, the last one first. -/
structure Script where
  entries : List ScriptEntry
  commands : List Command := []

namespace Script

/-- The first entry for a command line, and the entries without it. -/
def take? (line : String) : List ScriptEntry → Option (ScriptEntry × List ScriptEntry)
  | [] => none
  | entry :: entries =>
    if Text.startsWith entry.start line then some (entry, entries)
    else (take? line entries).map fun (found, rest) => (found, entry :: rest)

/-- Answers a command from the script. -/
def run : Runner (StateM Script) := fun command script =>
  let commands := command :: script.commands
  match take? command.line script.entries with
  | some (entry, entries) => (entry.answer, ⟨entries, commands⟩)
  | none => (.error ⟨"no scripted answer: " ++ command.line, ""⟩, { script with commands })

end Script

end Lintel.Tool
