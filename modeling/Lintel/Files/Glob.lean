import Lintel.Files.Tree
import Lintel.Wildcard

/-!
# Finding files by patterns

A pattern is a row of parts, one per level of the tree (`Glob.partsOf`): a name, a wildcard, or two stars
for a directory at any depth. `Glob.find` gives the paths that a pattern leads to from a directory.
-/

namespace Lintel.Files.Glob

/-- One part of a pattern. -/
inductive Part where
  | here
  | named (name : String)
  | alike (wildcard : String)
  | anyDepth
  deriving DecidableEq, Repr

/-- Two stars. -/
def deep : String := "**"

/-- The part that a text stands for. -/
def partOf (text : String) : Except Fault Part :=
  if text == deep then .ok .anyDepth
  else if Text.holds deep text then
    .error (.raised .value "Invalid pattern: '**' can only be an entire path component")
  else if Wildcard.isWildcard text then .ok (.alike text)
  else .ok (.named text)

/-- The parts of a pattern. -/
def partsOf (pattern : String) : Except Fault (List Part) := do
  if pattern.isEmpty then throw (.raised .value "Unacceptable pattern: ''")
  let path := Path.ofString pattern
  if path.isAbsolute then throw (.unsupported "Non-relative patterns are unsupported")
  let parts ← path.parts.mapM partOf
  let all := if Text.endsWith "/" pattern then parts ++ [.here] else parts
  match all with
  | [] => throw (.outOfRange "tuple")
  | .here :: _ => throw (.noAttribute "_TerminatingSelector" "select_from")
  | all => return all

/-- The path below a directory with some components. -/
def beneath (path : Path) (parts : List String) : Path := ⟨path.root, path.parts ++ parts⟩

/-- The directories below a path, and itself. -/
def directories (view : View) (path : Path) : List Path :=
  path :: (view.below path).filterMap fun
    | (parts, .dir) => some (beneath path parts)
    | _ => none

/-- The entries of a directory that a wildcard fits; `inner` asks for directories. -/
def entriesLike (view : View) (path : Path) (wildcard : String) (inner : Bool) : List Path :=
  ((view.list path).toOption.getD []).filterMap fun (name, entry) =>
    let fits := Wildcard.matchesName wildcard name
    match entry with
    | .dir => if fits then some (path.child name) else none
    | .file .. => if fits && !inner then some (path.child name) else none

/-- The paths that parts lead to from a directory; it cannot be told what stands at a name that is too
long. -/
def select (view : View) : List Part → Path → Except Fault (List Path)
  | [], path => .ok [path]
  | .here :: _, path => .ok [path]
  | .named name :: parts, path => do
    let next := path.child name
    let there ← if parts.isEmpty then view.askHolds next else view.askDir next
    if there then select view parts next else return []
  | .alike wildcard :: parts, path => do
    let entries := entriesLike view path wildcard (!parts.isEmpty)
    return (← entries.mapM (select view parts)).flatten
  | .anyDepth :: parts, path => do
    return (← (directories view path).mapM (select view parts)).flatten.eraseDups

/-- The paths that a pattern leads to from a directory. -/
def find (view : View) (base : Path) (pattern : String) : Except Fault (List Path) := do
  let parts ← partsOf pattern
  if ← view.askDir base then select view parts base else return []

end Lintel.Files.Glob
