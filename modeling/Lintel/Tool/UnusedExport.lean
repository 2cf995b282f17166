import Lintel.Tool.Report

/-!
# Unused exports

The analyser of exports prints a JSON object somewhere in its output, with the log of the package
manager around it. The object starts at the first opening brace (`jsonPart?`) and maps each file to the
exports that nothing imports (`UnusedExport.ofPayload`).
-/

namespace Lintel.Tool

/-- An export that nothing imports. -/
structure UnusedExport where
  name : Json
  file : String
  line : Int
  column : Int

/-- The output from its first opening brace on. -/
def jsonPart? (output : String) : Option String :=
  match output.toList.dropWhile (· != '\x7b') with
  | [] => none
  | rest => some (String.ofList rest)

/-- One entry of a list of exports. -/
def UnusedExport.ofEntry (file : String) (entry : Json) : Except Fault UnusedExport := do
  let name ← entry.getField "name"
  let line ← entry.getNumber "line"
  let column ← entry.getNumber "col"
  return ⟨name, file, line, column⟩

/-- The exports of one file. -/
def UnusedExport.ofFile (member : String × Json) : Except Fault (List UnusedExport) := do
  (← Json.getElements "exports" (member.2.orElse (.obj []))).mapM (UnusedExport.ofEntry member.1)

/-- The name of the first member does not come after that of the second. -/
def nameNotAfter (a b : String × Json) : Bool := !(b.1 < a.1)

/-- The files of a report in the order of their names. -/
def filesOf : Json → Option (List (String × Json))
  | .obj members =>
    match (Json.lookup "files" members).getD (.obj []) with
    | .obj files => some (files.mergeSort nameNotAfter)
    | _ => none
  | _ => none

/-- The exports in the JSON object at the front of a text, file by file in the order of the names. -/
def UnusedExport.ofPayload (payload : String) : Except Fault (List UnusedExport) := do
  match Json.parseFront payload.toList with
  | .error (.longInteger digits) => throw (.longInteger digits)
  | .error (.misplaced fault) => throw (.badOutput "knip" (.notJson "knip" fault) "")
  | .ok value =>
    match filesOf value with
    | none => throw (.badOutput "knip" (.shape "knip output has no files map") "")
    | some files => return (← files.mapM UnusedExport.ofFile).flatten

end Lintel.Tool
