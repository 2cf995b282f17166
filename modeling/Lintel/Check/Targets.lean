import Lintel.Files.Tree
import Lintel.Text.Parts

/-!
# Source files below targets

A target is a directory, whose source files are taken at any depth, or a source file (`sourcesOf`).
Declaration files are passed over, and so are directories that hold what others made. The places of all
targets come in order and without repetition (`collect`), if it can be told what stands at each target
(`sources`).
-/

namespace Lintel.Check

open Files (Path Place View)

/-- The names of directories below a target whose files are passed over. -/
def skippedDirectories : List String := ["node_modules", ".git", "dist", "build", "coverage"]

/-- The name is that of a source file. -/
def isSourceName (name : String) : Bool :=
  [".ts", ".tsx"].contains (String.ofList (Path.suffixOf name.toList))
    && !Text.endsWith ".d.ts" name

/-- The components lead from a target to a source file that is not passed over. -/
def isSource (parts : List String) (entry : Entry) : Bool :=
  match entry with
  | .dir => false
  | .file .. =>
    isSourceName (parts.getLast?.getD "") && !parts.dropLast.any skippedDirectories.contains

/-- The places of the source files of one target. -/
def sourcesOf (view : View) (target : Path) : List Place :=
  if view.isFile target then
    if isSourceName target.name then [view.resolve target] else []
  else
    ((view.below target).filter fun e => isSource e.1 e.2).map fun e =>
      view.resolve target ++ e.1

/-- The places of the source files of all targets, in order, each one once. -/
def collect (view : View) (targets : List String) : List Place :=
  ((targets.flatMap fun target => sourcesOf view (.ofString target)).mergeSort
    Files.partsLe).eraseReps

/-- The places of the source files of all targets; it cannot be told what stands at a target if a name in
it is too long. -/
def sources (view : View) (targets : List String) : Except Fault (List Place) := do
  let _ ← targets.mapM fun target => view.askDir (.ofString target)
  return collect view targets

end Lintel.Check
