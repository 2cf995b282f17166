import Lintel.Policy.Catalog

/-!
# Loading rules

The rules of a workspace, or of all of them, are loaded in the order of the catalog. A file that cannot
be loaded is kept as an error; two rules with one id are a fault of the whole (`RuleStore.load`), and a
module may end the program. What was loaded once is kept from then on.

A module that was compiled may be kept in compiled form beside its file (`Bytecode`). It is taken for the
file as long as this has the size that it had, and was last written in the same second.
-/

namespace Lintel.Policy

open Files (Path Place View)
open Text (Bytes)

/-- The rules that were loaded, and the faults of the files that were not. -/
structure LoadedRules where
  rules : List Rule := []
  faults : List Fault := []

/-- The rules below a root, with what has been loaded for a workspace or, without one, for all. -/
structure RuleStore where
  root : Path
  loaded : List (Option String × LoadedRules) := []

/-- A rule file with the place of its rule in the catalog. -/
structure RuleFile where
  path : Path
  id : String
  policyPath : String

/-- The rule files of a layer. -/
def filesOfLayer (root : Path) (workspace : String) (layer : CatalogLayer) : List RuleFile :=
  layer.rules.map fun rule =>
    { path := ((root.child workspace).child layer.name).child rule.file
      id := s!"{workspace}/{layer.name}/{rule.id}"
      policyPath := s!"{workspace}/{layer.name}/{rule.file}" }

/-- The rule files of a workspace, or of all. -/
def ruleFiles (view : View) (root : Path) (workspace : Option String) :
    Except Fault (List RuleFile) := do
  let workspaces ← catalog view root
  let chosen := workspaces.filter fun w => workspace.all (· == w.name)
  return chosen.flatMap fun w => w.layers.flatMap (filesOfLayer root w.name)

/-! ## Modules -/

/-- What is known of a file that was compiled: the second of its last write and its size, in 32 bits. -/
structure Stamp where
  second : UInt32
  size : UInt32
  deriving DecidableEq, Repr

/-- A module in compiled form. -/
structure Compiled where
  stamp : Stamp
  rules : RuleModule

/-- When files were last written, and the compiled forms that are kept of them. -/
structure Bytecode where
  written : Place → UInt32 := fun _ => 0
  kept : Place → Option Compiled := fun _ => none

/-- The module in the text of a file; one that holds none exports nothing. -/
def moduleOf (rules : Option RuleModule) : RuleModule := rules.getD ⟨none, .ok none⟩

namespace Bytecode

/-- The stamp of a file. -/
def stamp (bytecode : Bytecode) (place : Place) (content : Bytes) : Stamp :=
  ⟨bytecode.written place, .ofNat content.length⟩

/-- The module that a file gives: the compiled form, if it has the stamp of the file, or else what the text
holds. -/
def moduleIn (bytecode : Bytecode) (place : Place) (content : Bytes) (rules : Option RuleModule) :
    RuleModule :=
  match bytecode.kept place with
  | none => moduleOf rules
  | some code => if code.stamp = bytecode.stamp place content then code.rules else moduleOf rules

end Bytecode

/-- The module that the file at a path gives. -/
def moduleAt (view : View) (bytecode : Bytecode) (path : Path) : RuleModule :=
  match view.locate path with
  | .ok (place, .file content rules) => bytecode.moduleIn place content rules
  | _ => moduleOf none

/-! ## Files -/

/-- The fault of a module that cannot be loaded; one that tells by itself why a rule is rejected, or that
ends the program, stays as it is. -/
def rejection (path : String) : Fault → Fault
  | .exit kind message => .exit kind message
  | .ruleRejected message place => .ruleRejected message place
  | fault => .ruleRejected (path ++ ": " ++ fault.message) path

/-- The rule of a file, with its identity. -/
def loadFile (modules : Path → RuleModule) (file : RuleFile) : Except Fault Rule :=
  let found := modules file.path
  let path := file.path.text
  match found.exported with
  | .error fault => .error (rejection path fault)
  | .ok none =>
    .error (.ruleRejected (path ++ " does not export a policy_check rule") path)
  | .ok (some rule) =>
    .ok (rule.bind file.id (Metadata.ofDoc (found.doc.getD "")) file.policyPath)

/-- The fault of two rules with one id. -/
def duplicateFault (id path other : String) : Fault :=
  .ruleRejected ("Duplicate rule id " ++ Text.quoted id ++ " in " ++ path ++ " and " ++ other) path

/-- Loads files one after another; `seen` says which id came from which path. -/
def loadFiles (modules : Path → RuleModule) (seen : List (String × String)) :
    List RuleFile → Except Fault LoadedRules
  | [] => .ok {}
  | file :: files =>
    match loadFile modules file with
    | .error fault =>
      if fault.isExit then .error fault
      else do
        let rest ← loadFiles modules seen files
        return { rest with faults := fault :: rest.faults }
    | .ok rule =>
      match seen.find? (·.1 == rule.id) with
      | some (_, other) => .error (duplicateFault rule.id file.path.text other)
      | none => do
        let rest ← loadFiles modules ((rule.id, file.path.text) :: seen) files
        return { rest with rules := rule :: rest.rules }

namespace RuleStore

/-- Loads the rules of a workspace, or of all, unless that was done before. -/
def load (store : RuleStore) (view : View) (workspace : Option String) (bytecode : Bytecode := {}) :
    Except Fault (LoadedRules × RuleStore) :=
  match store.loaded.find? (·.1 == workspace) with
  | some (_, rules) => .ok (rules, store)
  | none => do
    let files ← ruleFiles view store.root workspace
    let rules ← loadFiles (moduleAt view bytecode) [] files
    return (rules, { store with loaded := (workspace, rules) :: store.loaded })

end RuleStore

end Lintel.Policy
