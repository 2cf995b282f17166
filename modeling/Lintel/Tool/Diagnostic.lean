import Lintel.Json.Access
import Lintel.Text.Lines

/-!
# Diagnostics of the type checker

The type checker prints one diagnostic on a line, `file(line,column): error TS1234: message`
(`Diagnostic.ofLine?`). The file may itself hold parentheses: the last place in the line that reads as
a position counts. Other lines are passed over (`Diagnostic.ofOutput`).
-/

namespace Lintel.Tool

/-- An error that the type checker found. -/
structure Diagnostic where
  file : String
  line : Int
  column : Int
  code : String
  message : String
  deriving DecidableEq, Repr

/-- A diagnostic whose numbers are still text. -/
structure RawDiagnostic where
  file : List Char
  line : List Char
  column : List Char
  code : List Char
  message : List Char
  deriving DecidableEq, Repr

/-- The decimal digits at the front, at least one, and the rest. -/
def digitsAtFront? (cs : List Char) : Option (List Char × List Char) :=
  match cs.takeWhile Unicode.isDecimal with
  | [] => none
  | ds => some (ds, cs.dropWhile Unicode.isDecimal)

/-- The rest after some blanks, at least one. -/
def afterBlanks? (cs : List Char) : Option (List Char) :=
  match cs with
  | c :: _ => if Text.isBlank c then some (cs.dropWhile Text.isBlank) else none
  | [] => none

/-- Reads `(line,column): error TS1234: message`; the file is left open. -/
def positionAtFront? (cs : List Char) : Option RawDiagnostic := do
  let rest ← Json.after? ['('] cs
  let (line, rest) ← digitsAtFront? rest
  let rest ← Json.after? [','] rest
  let (column, rest) ← digitsAtFront? rest
  let rest ← Json.after? [')', ':'] rest
  let rest ← afterBlanks? rest
  let rest ← Json.after? "error".toList rest
  let rest ← afterBlanks? rest
  let rest ← Json.after? ['T', 'S'] rest
  let (number, rest) ← digitsAtFront? rest
  let rest ← Json.after? [':'] rest
  let message ← afterBlanks? rest
  if message.isEmpty then none
  else some ⟨[], line, column, 'T' :: 'S' :: number, message⟩

/-- The diagnostic of a line whose first characters, `before` in reverse, belong to the file; of
several readings the one with the longest file. -/
def RawDiagnostic.search? (before : List Char) : List Char → Option RawDiagnostic
  | [] => none
  | c :: cs =>
    match search? (c :: before) cs with
    | some found => some found
    | none =>
      if before.isEmpty then none
      else (positionAtFront? (c :: cs)).map fun found => { found with file := before.reverse }

/-- The diagnostic of a line without blanks at its ends. -/
def RawDiagnostic.ofLine? (line : List Char) : Option RawDiagnostic := search? [] line

/-- The whole number of a row of digits. -/
def numberOf (digits : List Char) : Except Fault Int :=
  Json.wholeNumber (.str (String.ofList digits))

/-- The diagnostic with its numbers read. -/
def RawDiagnostic.read (raw : RawDiagnostic) : Except Fault Diagnostic := do
  let line ← numberOf raw.line
  let column ← numberOf raw.column
  return ⟨String.ofList raw.file, line, column, String.ofList raw.code, String.ofList raw.message⟩

/-- The diagnostics in the output of the type checker. -/
def Diagnostic.ofOutput (output : String) : Except Fault (List Diagnostic) :=
  ((Text.splitLines output.toList).filterMap fun line =>
    RawDiagnostic.ofLine? (Text.trimChars line)).mapM RawDiagnostic.read

end Lintel.Tool
