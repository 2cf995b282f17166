import Lintel.Files.Tree

/-!
# The catalog of rules

Rules are kept as files below a root, by workspace and layer. The catalog lists the workspaces and
layers that hold a rule, in the order of their names, and describes each rule by the tag of its doc
comment (`catalog`).
-/

namespace Lintel.Policy

open Files (Path View)

/-- A rule in the catalog. -/
structure CatalogRule where
  id : String
  file : String
  description : String
  deriving DecidableEq, Repr

/-- The rules of a layer. -/
structure CatalogLayer where
  name : String
  rules : List CatalogRule
  deriving DecidableEq, Repr

/-- The layers of a workspace. -/
structure CatalogWorkspace where
  name : String
  layers : List CatalogLayer
  deriving DecidableEq, Repr

/-- The names of files that gather others. -/
def gatheringFiles : List String := ["__init__.py", "index.ts"]

/-- The ends of the names of declaration files. -/
def declarationSuffixes : List String := [".pyi", ".d.ts"]

/-- The end of the names of rule files. -/
def ruleSuffixes : List String := [".py"]

/-- The name is that of a rule file. -/
def isRuleFile (suffixes : List String) (name : String) : Bool :=
  !gatheringFiles.contains name && !declarationSuffixes.any (Text.endsWith · name)
    && suffixes.any (Text.endsWith · name)

/-- The name without what stands from its last dot on. -/
def ruleStem (name : String) : String :=
  let cs := name.toList
  if cs.contains '.' then String.ofList ((cs.reverse.dropWhile (· != '.')).drop 1).reverse
  else name

/-- The description of the rule in a file, empty if the file is no text. -/
def descriptionOf : Entry → String
  | .dir => ""
  | .file content _ =>
    match View.textOf content with
    | .ok text => description text
    | .error _ => ""

/-- The entries of a directory, none if there is no directory. -/
def entriesOf (view : View) (path : Path) : List (String × Entry) :=
  match view.list path with
  | .ok entries => entries
  | .error _ => []

/-- The names of directories that may hold rules. -/
def openDirectories (view : View) (path : Path) : List String :=
  (entriesOf view path).filterMap fun
    | (name, .dir) =>
      if Text.startsWith "." name || Text.startsWith "_" name then none else some name
    | _ => none

/-- The rules in a directory. -/
def rulesIn (view : View) (suffixes : List String) (path : Path) : List CatalogRule :=
  (entriesOf view path).filterMap fun
    | (_, .dir) => none
    | (name, entry) =>
      if isRuleFile suffixes name then some ⟨ruleStem name, name, descriptionOf entry⟩ else none

/-- The layers of a workspace that hold a rule. -/
def layersIn (view : View) (suffixes : List String) (path : Path) : List CatalogLayer :=
  ((openDirectories view path).map fun name =>
    CatalogLayer.mk name (rulesIn view suffixes (path.child name))).filter (!·.rules.isEmpty)

/-- The workspaces in a directory that hold a rule. -/
def workspacesIn (view : View) (suffixes : List String) (path : Path) : List CatalogWorkspace :=
  ((openDirectories view path).map fun name =>
    CatalogWorkspace.mk name (layersIn view suffixes (path.child name))).filter (!·.layers.isEmpty)

/-- The catalog of a root, empty if no directory stands there. -/
def catalog (view : View) (root : Path) (suffixes : List String := ruleSuffixes) :
    Except Fault (List CatalogWorkspace) := do
  if ← view.askDir root then return workspacesIn view suffixes root else return []

end Lintel.Policy
