import Lintel.Shell.Arithmetic
import Lintel.Shell.Syntax
import Lintel.Shell.World
import Lintel.Wildcard

/-!
# Words of commands

When a command is run, its words become fields: references are put in place, what is not quoted is split
at blanks, and wildcards stand for the names that they match (`fields`).
-/

namespace Lintel.Shell

open Files (View)

/-- A character of a field, and whether it is quoted. -/
abbrev Mark := Char × Bool

/-- Fields in the making: the finished ones, the last one first, and the one that is open. -/
structure Fields where
  finished : List (List Mark) := []
  current : Option (List Mark) := none

namespace Fields

/-- Adds text to the open field. -/
def add (fields : Fields) (quoted : Bool) (cs : List Char) : Fields :=
  { fields with current := some (fields.current.getD [] ++ cs.map (·, quoted)) }

/-- Ends the open field. -/
def close (fields : Fields) : Fields :=
  match fields.current with
  | some field => ⟨field :: fields.finished, none⟩
  | none => fields

/-- Adds text that is split at blanks. -/
def addSplit (fields : Fields) (cs : List Char) : Fields := cs.foldl (fun fields c =>
  if isSpace c || c == '\n' then fields.close else fields.add false [c]) fields

/-- Adds texts that are fields of their own, except that the first one goes to the open field. -/
def addAll (fields : Fields) : List String → Fields
  | [] => fields
  | text :: texts =>
    texts.foldl (fun fields text => fields.close.add true text.toList) (fields.add true text.toList)

/-- All fields. -/
def all (fields : Fields) : List (List Mark) := fields.close.finished.reverse

end Fields

/-- The text without the line ends at its end. -/
def dropLineEnds (text : String) : String :=
  String.ofList (text.toList.reverse.dropWhile (· == '\n')).reverse

/-- The text of a part, and whether it is quoted; `run` runs a script. -/
def partText (run : String → Act Unit) : Part → Act (String × Bool)
  | .plain text => return (text, false)
  | .quoted text => return (text, true)
  | .variable name default quoted => return ((← scope).reference name default, quoted)
  | .command script quoted => do
    let flow ← collect (subshell (run script))
    if flow.isEndless then throw .late
    return (dropLineEnds flow.text, quoted)
  | .arithmetic text quoted => do
    let scope ← scope
    let valueOf := fun name => (numberOf ((scope.value? name).getD "")).1
    match Arithmetic.arithmetic? valueOf text with
    | some value => return (Number.intText value, quoted)
    | none =>
      shellComplain ("arithmetic expression: expecting primary: \"" ++ text ++ "\"")
      throw (.exit 2)

/-- The part stands for all arguments, each in a field of its own. -/
def isAllArguments : Part → Bool
  | .variable "@" _ true => true
  | _ => false

/-- Puts a part in place. -/
def placePart (run : String → Act Unit) (fields : Fields) (part : Part) : Act Fields := do
  if isAllArguments part then return fields.addAll ((← scope).arguments.drop 1)
  else
    let (text, quoted) ← partText run part
    match part with
    | .plain _ => return fields.add false text.toList
    | _ => return if quoted then fields.add true text.toList else fields.addSplit text.toList

/-- The names that a field with wildcards matches. -/
def matching (view : View) (field : List Char) : List String :=
  let name := (field.reverse.takeWhile (· != '/')).reverse
  let start := String.ofList (field.take (field.length - name.length))
  match view.locate (.ofString start) with
  | .ok (place, .dir) =>
    let hidden := name.head? == some '.'
    let names := (view.files.list place).map (·.1)
    (names.filter fun entry =>
      Wildcard.matchesName (String.ofList name) entry && (hidden || !entry.startsWith ".")).map
        (start ++ ·)
  | _ => []

/-- The fields that a field becomes: the names that match it, or itself. -/
def matched (view : View) (field : List Mark) : List String :=
  let cs := field.map (·.1)
  let isWild := field.any fun (c, quoted) => !quoted && "*?[".toList.contains c
  let names := if isWild then matching view cs else []
  if names.isEmpty then [String.ofList cs] else names

/-- The fields of a word. -/
def fields (run : String → Act Unit) (word : Word) : Act (List String) := do
  let fields ← word.foldlM (placePart run) {}
  let view ← view
  return fields.all.flatMap (matched view)

/-- The text of a word that is not split. -/
def wordText (run : String → Act Unit) (word : Word) : Act String := do
  let texts ← word.mapM (partText run)
  return String.join (texts.map (·.1))

end Lintel.Shell
