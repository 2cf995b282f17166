import Lintel.Shell.Utility

/-!
# Utilities for files

Utilities that list, make, move and remove files and directories, and tests of what there is.
-/

namespace Lintel.Shell

open Files (Path Place View)

/-! ## Changing the tree -/

/-- The directory that a new entry at a path would be in, and its name. -/
def parentOf (view : View) (path : Path) : Except FileRefusal (Place × String) :=
  match path.parts.getLast? with
  | none => .error .isDirectory
  | some name =>
    match view.locate { path with parts := path.parts.dropLast } with
    | .ok (place, .dir) => .ok (place, name)
    | .ok _ => .error .notDirectory
    | .error refusal => .error refusal

/-- The place of a file at a path: there is one already, or one can be made. -/
def filePlace (view : View) (name : String) : Except FileRefusal Place :=
  if name.isEmpty then .error .missing
  else
    match view.locate (.ofString name) with
    | .ok (place, .file ..) => .ok place
    | .ok (_, .dir) => .error .isDirectory
    | .error .missing =>
      (parentOf view (.ofString name)).map fun (place, last) => place ++ [last]
    | .error refusal => .error refusal

/-- The tree with a file at a place, without what it held before unless `append`. -/
def writeTo (files : Files) (place : Place) (append : Bool) (bytes : Text.Bytes) : Files :=
  match files.entry? place with
  | some (.file content _) =>
    if append then files.set place (.file (content ++ bytes) none)
    else files.set place (.file bytes none)
  | _ => files.set place (.file bytes none)

/-- Does something with the tree for every name; a complaint leaves the tree as it is. -/
def forNames (view : View) (names : List String)
    (act : View → String → Except String Files) : Done :=
  let (files, complaints) := names.foldl (fun (files, complaints) name =>
    match act { view with files } name with
    | .ok files => (files, complaints)
    | .error complaint => (files, complaints ++ [complaint])) (view.files, [])
  { files := some files, complaints, status := if complaints.isEmpty then 0 else 1 }

/-- Makes a file unless there is one. -/
def touchUtility : Utility := fun view _ arguments =>
  forNames view (Options.read ['d', 't', 'r'] arguments).operands fun view name =>
    match view.locate (.ofString name) with
    | .ok _ => .ok view.files
    | .error _ =>
      match filePlace view name with
      | .ok place => .ok (view.files.set place (.file [] none))
      | .error refusal => .error (s!"cannot touch '{name}': " ++ refusal.words)

/-- Makes directories. -/
def mkdirUtility : Utility := fun view _ arguments =>
  let options := Options.read ['m'] arguments
  forNames view options.operands fun view name =>
    let complain := fun reason => .error (s!"cannot create directory ‘{name}’: " ++ reason)
    match view.locate (.ofString name) with
    | .ok (_, .dir) => if options.has 'p' then .ok view.files else complain "File exists"
    | .ok _ => complain "File exists"
    | .error refusal =>
      if options.has 'p' then .ok (view.files.put (view.resolve (.ofString name)) .dir)
      else
        match refusal, parentOf view (.ofString name) with
        | .missing, .ok (place, last) => .ok (view.files.set (place ++ [last]) .dir)
        | _, .error refusal => complain refusal.words
        | refusal, _ => complain refusal.words

/-- Removes files, and directories if an option asks for it. -/
def rmUtility : Utility := fun view _ arguments =>
  let options := Options.read [] arguments
  let deep := options.has 'r' || options.has 'R'
  forNames view options.operands fun view name =>
    let complain := fun reason => .error (s!"cannot remove '{name}': " ++ reason)
    match view.locate (.ofString name) with
    | .ok (place, .dir) => if deep then .ok (view.files.remove place) else complain "Is a directory"
    | .ok (place, _) => .ok (view.files.remove place)
    | .error refusal => if options.has 'f' then .ok view.files else complain refusal.words

/-- Removes empty directories. -/
def rmdirUtility : Utility := fun view _ arguments =>
  forNames view (Options.read [] arguments).operands fun view name =>
    let complain := fun reason => .error (s!"failed to remove '{name}': " ++ reason)
    match view.locate (.ofString name) with
    | .ok (place, .dir) =>
      if (view.files.below place).isEmpty then .ok (view.files.remove place)
      else complain "Directory not empty"
    | .ok _ => complain "Not a directory"
    | .error refusal => complain refusal.words

/-- The place that something is copied to: in a directory under its own name. -/
def targetPlace (view : View) (source target : String) : Except FileRefusal Place :=
  match view.locate (.ofString target) with
  | .ok (place, .dir) => .ok (place ++ ((Path.ofString source).parts.getLast?).toList)
  | _ => filePlace view target

/-- The tree with a copy of everything from one place at another. -/
def copied (files : Files) (source target : Place) : Files :=
  let whole := (files.entry? source).toList.map (([], ·)) ++ files.below source
  whole.foldl (fun files (rest, entry) => files.put (target ++ rest) entry) files

/-- Copies or moves files. -/
def copyUtility (moves : Bool) : Utility := fun view _ arguments =>
  let options := Options.read [] arguments
  match options.operands.getLast? with
  | none => .complaining "missing file operand" 1
  | some target =>
    forNames view options.operands.dropLast fun view name =>
      match view.locate (.ofString name) with
      | .error refusal => .error (s!"cannot stat '{name}': " ++ refusal.words)
      | .ok (place, entry) =>
        let isDir := match entry with
          | .dir => true
          | .file .. => false
        if isDir && !moves && !(options.has 'r' || options.has 'R' || options.has 'a') then
          .error s!"-r not specified; omitting directory '{name}'"
        else
          match targetPlace view name target with
          | .error refusal =>
            .error (s!"cannot create regular file '{target}': " ++ refusal.words)
          | .ok goal =>
            let files := copied view.files place goal
            .ok (if moves && goal != place then files.remove place else files)

/-- Copies its input to its output and to files. -/
def teeUtility : Utility := fun view input arguments =>
  let options := Options.read [] arguments
  if input.isEndless then { out := input }
  else
    let done := forNames view options.operands fun view name =>
      match filePlace view name with
      | .ok place => .ok (writeTo view.files place (options.has 'a') input.bytes)
      | .error refusal => .error (refusedName name refusal)
    { done with out := input }

/-! ## Listing -/

/-- The names in a directory that a listing shows. -/
def namesIn (view : View) (place : Place) (all : Bool) : List String :=
  let names := (view.files.list place).map (·.1)
  if all then names else names.filter fun name => !name.startsWith "."

/-- Lists files and directories, a name a line. -/
def lsUtility : Utility := fun view _ arguments =>
  let options := Options.read [] arguments
  let names := if options.operands.isEmpty then ["."] else options.operands
  let found := names.map fun name => (name, view.locate (.ofString name))
  let complaints := found.filterMap fun (name, result) => match result with
    | .error refusal => some (s!"cannot access '{name}': " ++ refusal.words)
    | .ok _ => none
  let files := found.filterMap fun (name, result) => match result with
    | .ok (_, .file ..) => some name
    | .ok (_, .dir) => if options.has 'd' then some name else none
    | .error _ => none
  let shown := options.has 'a' || options.has 'A'
  let dirs := found.filterMap fun (name, result) => match result with
    | .ok (place, .dir) =>
      let dots := if options.has 'a' then [".", ".."] else []
      if options.has 'd' then none else some (name, dots ++ namesIn view place shown)
    | _ => none
  let titled := names.length > 1
  let blocks := dirs.map fun (name, entries) => if titled then (name ++ ":") :: entries else entries
  let blocks := if files.isEmpty then blocks else files.mergeSort (fun a b => !(b < a)) :: blocks
  let lines := (blocks.intersperse [""]).flatten
  { out := .ofLines lines, complaints, status := if complaints.isEmpty then 0 else 2 }

/-- Prints the last component of a path, without an ending. -/
def basenameUtility : Utility := fun _ _ arguments =>
  let name := (arguments.head?.bind fun a => (Path.ofString a).parts.getLast?).getD "/"
  let ending := arguments[1]?.getD ""
  let hasEnding := name != ending && name.endsWith ending
  .ofLines [if hasEnding then (name.dropEnd ending.length).toString else name]

/-- Prints a path without its last component. -/
def dirnameUtility : Utility := fun _ _ arguments =>
  let path := Path.ofString (arguments.head?.getD "")
  .ofLines [{ path with parts := path.parts.dropLast : Path }.text]

/-! ## Tests -/

/-- What a test with one operand says. -/
def testOne (view : View) (op operand : String) : Option Bool :=
  let found := if operand.isEmpty then .error .missing else view.locate (.ofString operand)
  match op with
  | "-n" => some (!operand.isEmpty)
  | "-z" => some operand.isEmpty
  | "-e" | "-r" | "-w" => some (found.toBool || operand.startsWith "/dev/")
  | "-f" => some (match found with
    | .ok (_, .file ..) => true
    | _ => false)
  | "-d" | "-x" => some (match found with
    | .ok (_, .dir) => true
    | _ => false)
  | "-s" => some (match found with
    | .ok (_, .file content _) => !content.isEmpty
    | .ok (_, .dir) => true
    | _ => false)
  | "-L" | "-h" | "-p" | "-S" | "-b" | "-c" | "-t" => some false
  | _ => none

/-- What a test with two operands says. -/
def testTwo (left op right : String) : Option Bool :=
  let a := (numberOf left).1
  let b := (numberOf right).1
  match op with
  | "=" | "==" => some (left == right)
  | "!=" => some (left != right)
  | "<" => some (left < right)
  | ">" => some (right < left)
  | "-eq" => some (a == b)
  | "-ne" => some (a != b)
  | "-lt" => some (a < b)
  | "-le" => some (a ≤ b)
  | "-gt" => some (b < a)
  | "-ge" => some (b ≤ a)
  | _ => none

/-- What a test without connectives says; none if it is no such test. -/
def testPlain (view : View) : List String → Option Bool
  | [] => some false
  | [word] => some (!word.isEmpty)
  | [op, operand] => if op == "!" then some operand.isEmpty else testOne view op operand
  | left :: rest =>
    let negated := if left == "!" then (testPlain view rest).map (!·) else none
    match rest with
    | [op, right] => (testTwo left op right).orElse fun _ => negated
    | _ => negated

/-- What a row of words says: some of its parts hold, in which all of their parts hold; none if it is no
test. -/
def testOf (view : View) (words : List String) : Option Bool :=
  (testPlain view words).orElse fun _ => do
    let parts ← (words.splitOn "-o").mapM fun part => do
      return (← (part.splitOn "-a").mapM (testPlain view)).all fun holds => holds
    return parts.any fun holds => holds

/-- The tests that compare numbers. -/
def numberTests : List String := ["-eq", "-ne", "-lt", "-le", "-gt", "-ge"]

/-- The operand of a comparison of numbers that is no number. -/
def notNumber? : List String → Option String
  | [left, op, right] =>
    if numberTests.contains op then [left, right].find? fun word => !(numberOf word).2 || word.isEmpty
    else none
  | _ => none

/-- Tests files, texts and numbers; programs and the shell complain in words of their own. -/
def testUtility (isProgram bracket : Bool) : Utility := fun view _ arguments =>
  if bracket && arguments.getLast? != some "]" then
    .complaining (if isProgram then "missing ‘]’" else "missing ]") 2
  else
    let words := if bracket then arguments.dropLast else arguments
    if let some word := notNumber? words then
      .complaining (if isProgram then s!"invalid integer ‘{word}’" else s!"Illegal number: {word}") 2
    else match testOf view words with
    | some true => .withStatus 0
    | some false => .withStatus 1
    | none => .complaining "unexpected operator" 2

end Lintel.Shell
