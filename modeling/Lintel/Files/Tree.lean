import Lintel.Files.Path
import Lintel.Rule.Basic

/-!
# File trees

A file tree holds directories and files by their places (`Files`). A path is looked up component by
component: each one must be in a directory (`Files.locate`), and a name has a limited length (`maxName`).
The order of the entries is of no account; listings come in the order of names. There are no links, everything
may be read, and a path may have any number of components.
-/

namespace Lintel

open Text (Bytes)

/-- What stands at a place: a directory, or a file with its bytes and, if it is one, the rule module
that it holds. -/
inductive Entry where
  | dir
  | file (content : Bytes) (rules : Option RuleModule)

/-- A file tree; the root is always there. -/
structure Files where
  entries : List (Files.Place × Entry)

namespace Files

/-- The tree of an empty root. -/
def empty : Files := ⟨[]⟩

/-- The entry at a place. -/
def entry? (files : Files) (place : Place) : Option Entry :=
  if place.isEmpty then some .dir else (files.entries.find? (·.1 == place)).map (·.2)

/-- The tree with `entry` at a place; what stood there is replaced. -/
def set (files : Files) (place : Place) (entry : Entry) : Files :=
  ⟨files.entries.filter (·.1 != place) ++ [(place, entry)]⟩

/-- The tree with a directory at a place, unless something stands there. -/
def addDir (files : Files) (place : Place) : Files :=
  match files.entry? place with
  | some _ => files
  | none => files.set place .dir

/-- The places above, nearest last. -/
def ancestors (place : Place) : List Place := (List.range place.length).map place.take

/-- The tree with `entry` at a place and directories above it. -/
def put (files : Files) (place : Place) (entry : Entry) : Files :=
  ((ancestors place).foldl addDir files).set place entry

/-- The tree without a place and what is below it. -/
def remove (files : Files) (place : Place) : Files :=
  ⟨files.entries.filter fun e => !place.isPrefixOf e.1⟩

/-- What is below a place, each with its components from there. -/
def below (files : Files) (place : Place) : List (List String × Entry) :=
  files.entries.filterMap fun (at_, entry) =>
    if place.isPrefixOf at_ && place.length < at_.length then some (at_.drop place.length, entry)
    else none

/-- The first name does not come after the second. -/
def nameLe (a b : String × Entry) : Bool := !(b.1 < a.1)

/-- The entries of a directory in the order of their names. -/
def list (files : Files) (place : Place) : List (String × Entry) :=
  let children := (files.below place).filterMap fun
    | ([name], entry) => some (name, entry)
    | _ => none
  children.mergeSort nameLe

/-! ## Looking up paths -/

/-- A name is too long from this number of bytes on. -/
def maxName : Nat := 255

/-- Steps through components from a directory. -/
def locateFrom (files : Files) (place : Place) : List String → Except FileRefusal (Place × Entry)
  | [] =>
    match files.entry? place with
    | some entry => .ok (place, entry)
    | none => .error .missing
  | part :: parts =>
    match files.entry? place with
    | none => .error .missing
    | some (.file ..) => .error .notDirectory
    | some .dir =>
      if maxName < (Text.encode part).length then .error .longName
      else locateFrom files (Path.step place part) parts

/-- What stands at a path; a relative one is taken from `current`. -/
def locate (files : Files) (current : Place) (path : Path) : Except FileRefusal (Place × Entry) :=
  locateFrom files (if path.isAbsolute then [] else current) path.parts

/-- A file tree with the current directory. -/
structure View where
  files : Files
  current : Place := []

namespace View

/-- What stands at a path. -/
def locate (view : View) (path : Path) : Except FileRefusal (Place × Entry) :=
  view.files.locate view.current path

/-- The path has a character that no name can have. -/
def hasNul (path : Path) : Bool := path.parts.any fun part => part.toList.contains (Char.ofNat 0)

/-- A file stands at the path. -/
def isFile (view : View) (path : Path) : Bool :=
  match view.locate path with
  | .ok (_, .file ..) => true
  | _ => false

/-- A directory stands at the path. -/
def isDir (view : View) (path : Path) : Bool :=
  match view.locate path with
  | .ok (_, .dir) => true
  | _ => false

/-- Asks whether a directory stands at the path; that cannot be told if a name in it is too long. -/
def askDir (view : View) (path : Path) : Except Fault Bool :=
  if hasNul path then .ok false
  else
    match view.locate path with
    | .ok (_, .dir) => .ok true
    | .error .longName => .error (.file .longName path.text)
    | _ => .ok false

/-- Asks whether a file stands at the path; that cannot be told if a name in it is too long. -/
def askFile (view : View) (path : Path) : Except Fault Bool :=
  match view.locate path with
  | .error .longName => if hasNul path then .ok false else .error (.file .longName path.text)
  | _ => .ok (view.isFile path)

/-- Asks whether something stands at the path; that cannot be told if a name in it is too long. -/
def askHolds (view : View) (path : Path) : Except Fault Bool :=
  match view.locate path with
  | .error .longName => if hasNul path then .ok false else .error (.file .longName path.text)
  | found => .ok found.toBool

/-- The bytes of the file at a path. -/
def readBytes (view : View) (path : Path) : Except Fault Bytes :=
  if hasNul path then .error (.embeddedNul "embedded null byte")
  else
    match view.locate path with
    | .ok (_, .file content _) => .ok content
    | .ok (_, .dir) => .error (.file .isDirectory path.text)
    | .error refusal => .error (.file refusal path.text)

/-- The text of bytes: UTF-8 with unified line ends. -/
def textOf (bytes : Bytes) : Except Fault String :=
  match Text.decode bytes with
  | .ok cs => .ok (String.ofList (Text.unifyNewlines cs))
  | .error flaw => .error (.undecodable flaw)

/-- The text of the file at a path. -/
def readText (view : View) (path : Path) : Except Fault String := do
  textOf (← view.readBytes path)

/-- The entries of the directory at a path, in the order of their names. -/
def list (view : View) (path : Path) : Except Fault (List (String × Entry)) :=
  if hasNul path then .error (.embeddedNul "embedded null byte")
  else
    match view.locate path with
    | .ok (place, .dir) => .ok (view.files.list place)
    | .ok (_, .file ..) => .error (.file .notDirectory path.text)
    | .error refusal => .error (.file refusal path.text)

/-- What is below the directory at a path, each with its components from there. -/
def below (view : View) (path : Path) : List (List String × Entry) :=
  match view.locate path with
  | .ok (place, .dir) => view.files.below place
  | _ => []

/-- The place of a path. -/
def resolve (view : View) (path : Path) : Place := path.resolve view.current

end View

end Files

end Lintel
