import Lintel.Files.Tree

/-!
# Files within directories

Tools name files relative to the directory that they ran in (`resolveFrom`). A file is within some
directories if the place of one of them is the start of its own place (`isWithin`).
-/

namespace Lintel.Files

/-- The place of a path; no name in it may hold a null character. -/
def View.place (view : View) (path : Path) : Except Fault Place :=
  if View.hasNul path then .error (.embeddedNul "embedded null byte")
  else .ok (view.resolve path)

/-- The place of a file that is named from the directory `base`. -/
def resolveFrom (view : View) (base : Path) (file : String) : Except Fault Place :=
  view.place (base.join (.ofString file))

/-- The file is within one of the directories, or there are none. -/
def isWithin (view : View) (base : Path) (directories : List String) (file : String) :
    Except Fault Bool := do
  let targets ← directories.mapM fun d => view.place (.ofString d)
  if targets.isEmpty then return true
  let place ← resolveFrom view base file
  return targets.any (·.isPrefixOf place)

/-- The file that a value names is within one of the directories, or there are none. -/
def isValueWithin (view : View) (base : Path) (directories : List String) (file : Json) :
    Except Fault Bool :=
  match file with
  | .str name => isWithin view base directories name
  | other => if directories.isEmpty then .ok true else .error (.notPath other.typeName)

end Lintel.Files
