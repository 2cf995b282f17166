import Lintel.Files.Glob
import Lintel.Pattern.Reader
import Lintel.Report.Lines
import Lintel.Review.Message
import Lintel.Schema.Form

/-!
# Tools for reading files

The model may look at the project with tools that read: a file, the entries of a directory, the files
that a pattern finds, the lines that match. A tool that fails answers with what went wrong
(`Toolset.execute`), so that the model can go on.
-/

namespace Lintel.Review

open Files (Path View)
open Schema (Checked Form)

/-! ## Requests -/

/-- What a tool is asked to do. -/
inductive Request where
  | readFile (path : String)
  | listFiles (path : String)
  | listOverviews (path : String)
  | glob (pattern : String) (directory : Option String)
  | grep (pattern path : String) (filePattern : Option String)
  deriving DecidableEq, Repr

/-- The tools. -/
inductive Tool where
  | readFile
  | listFiles
  | listOverviews
  | glob
  | grep
  deriving DecidableEq, Repr

namespace Tool

/-- All tools. -/
def all : List Tool := [readFile, listFiles, listOverviews, glob, grep]

/-- The name of a tool. -/
def name : Tool → String
  | readFile => "read_file"
  | listFiles => "list_files"
  | listOverviews => "list_overview_files"
  | glob => "glob"
  | grep => "grep"

/-- The name of the form for the arguments of a tool. -/
def formName : Tool → String
  | glob => "GlobInput"
  | grep => "GrepInput"
  | _ => "PathInput"

/-- The field that a text given instead of arguments stands for. -/
def mainField : Tool → String
  | glob | grep => "pattern"
  | _ => "path"

/-- The form for the arguments of a tool. -/
def form (tool : Tool) (members : List (String × Json)) : Form Request :=
  let path := Form.required members "path" Schema.text
  let pattern := Form.required members "pattern" Schema.text
  let optional := fun (name : String) =>
    Form.field members name (Schema.optional Schema.text) none
  match tool with
  | readFile => return .readFile (← path)
  | listFiles => return .listFiles (← path)
  | listOverviews => return .listOverviews (← path)
  | glob => return .glob (← pattern) (← optional "cwd")
  | grep => return .grep (← pattern) (← path) (← optional "file_pattern")

/-- The request that arguments make. -/
def request (tool : Tool) (args : Json) : Checked Request :=
  let args := match args with
    | .str s => .obj [(tool.mainField, .str s)]
    | other => other
  Schema.ofObject tool.formName tool.form args

end Tool

/-! ## Answers -/

/-- Whether something is found in a line. -/
abbrev Finder := String → Bool

/-- What reads patterns to look for in lines, or says what is wrong with them. -/
abbrev Engine := String → Except Fault Finder

/-- Reads a regular expression whose anchors hold at every line; `character` tells the code points of the
characters that have a name. -/
def linePattern (character : String → Option Nat) : Engine := fun pattern =>
  match Pattern.read pattern { multiline := true } character with
  | .ok p => .ok p.isFoundIn
  | .error flaw => .error (flaw.fault pattern)

/-- The tools for a project: where relative paths start, how long an answer may be, and what patterns
mean. -/
structure Toolset where
  view : View
  root : Path
  limit : Int
  engine : Engine := linePattern Pattern.unnamed

namespace Toolset

/-- The path that a text names. -/
def pathOf (toolset : Toolset) (text : String) : Path := toolset.root.join (.ofString text)

/-- The lines as a text, or a remark if there are none. -/
def linesOr (remark : String) (lines : List String) : String :=
  if lines.isEmpty then remark else Text.unlines lines

/-- The names of the entries of a directory. -/
def namesIn (toolset : Toolset) (path : Path) : Except Fault (List String) := do
  return (← toolset.view.list path).map (·.1)

/-- The name is that of an overview: a digit, a zero and a hyphen, any text, and the usual end. -/
def isOverview (name : String) : Bool :=
  let ends := ["-overview.md".toList, "-overview.md\n".toList]
  match name.toList with
  | digit :: '0' :: '-' :: rest =>
    Unicode.isDecimal digit
      && ends.any fun back =>
        back.isSuffixOf rest && !(rest.take (rest.length - back.length)).contains '\n'
  | _ => false

/-- The files that a pattern finds. -/
def found (toolset : Toolset) (pattern : String) (base : Path) : Except Fault (List String) := do
  let paths := (← Files.Glob.find toolset.view base pattern).filter toolset.view.isFile
  return (paths.map Path.text).mergeSort fun a b => !(b < a)

/-- The files to search at a path, in order. -/
def searched (toolset : Toolset) (target : Path) (filePattern : Option String) :
    Except Fault (List Path) := do
  if ← toolset.view.askFile target then return [target]
  else if ← toolset.view.askDir target then
    let paths := (toolset.view.below target).filterMap fun
      | (_, .dir) => none
      | (parts, .file ..) => some (Files.Glob.beneath target parts)
    let fits := fun (path : Path) => filePattern.all fun p => Wildcard.matchesName p path.name
    return (paths.filter fits).mergeSort Files.pathLe
  else throw (.raised .value ("No such file or directory: " ++ target.text))

/-- The lines of a file that match, each with its place. -/
def matchesIn (toolset : Toolset) (finds : Finder) (path : Path) : List String :=
  match toolset.view.readText path with
  | .error _ => []
  | .ok text =>
    (Text.lines text).zipIdx.filterMap fun (line, i) =>
      if finds line then some s!"{path.text}:{Number.intText (i + 1)}:{line}" else none

/-- What a request yields. -/
def answer (toolset : Toolset) : Request → Except Fault String
  | .readFile path => toolset.view.readText (toolset.pathOf path)
  | .listFiles path => do
    return linesOr "Directory is empty" (← toolset.namesIn (toolset.pathOf path))
  | .listOverviews path => do
    let directory := toolset.pathOf path
    let names := (← toolset.namesIn directory).filter isOverview
    return linesOr "No overview files found" (names.map fun n => (directory.join (.ofString n)).text)
  | .glob pattern directory => do
    let base := match directory with
      | some d => if d.isEmpty then toolset.root else toolset.pathOf d
      | none => toolset.root
    return linesOr ("No files found matching pattern: " ++ pattern) (← toolset.found pattern base)
  | .grep pattern path filePattern => do
    let finds ← toolset.engine pattern
    let files ← toolset.searched (toolset.pathOf path) filePattern
    return linesOr ("No matches found for pattern: " ++ pattern)
      (files.flatMap (toolset.matchesIn finds))

/-- The message about what went wrong. -/
def complaint (message : String) : String := "Error: " ++ message

/-- What a tool answers to arguments; a failure is told as a text of its own. -/
def respond (toolset : Toolset) (tool : Tool) (args : Json) : Except String String :=
  match tool.request args with
  | .error problems => .error (complaint (Schema.report tool.formName problems))
  | .ok request =>
    match toolset.answer request with
    | .ok content => .ok (Report.bounded toolset.limit content)
    | .error fault => .error (complaint fault.message)

/-- Runs a tool that the model asks for. -/
def execute (toolset : Toolset) (call : ToolCall) : ToolResult :=
  let id := call.id.getD ""
  match Tool.all.find? (·.name == call.name) with
  | none => ⟨call.name, id, complaint ("Unknown tool " ++ call.name), true⟩
  | some tool =>
    match toolset.respond tool call.args with
    | .ok content => ⟨call.name, id, content, false⟩
    | .error message => ⟨call.name, id, message, true⟩

end Toolset

end Lintel.Review
