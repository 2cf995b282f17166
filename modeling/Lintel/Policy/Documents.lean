import Lintel.Policy.Catalog

/-!
# Policy documents

A policy is a directory below a category that holds a description of itself, `meta.json`, and documents.
Directories without a valid description are passed over (`scanDocuments`). What a file is reviewed
against depends on the policy and the name of the file (`Policy.select`).
-/

namespace Lintel

open Files (Path View)

/-- What a policy says of itself. -/
structure PolicyMeta where
  label : String
  description : String
  dependencies : List String := []
  deriving DecidableEq, Repr

/-- A policy directory with a valid description. -/
structure Policy where
  id : String
  category : String
  path : Path
  about : PolicyMeta

namespace Policy

/-! ## Descriptions -/

/-- The text of a value that is one. -/
def textOf? : Json → Option String
  | .str s => some s
  | _ => none

/-- The dependencies that a member names; without the member there are none. -/
def dependenciesOf? : Option Json → Option (List String)
  | none => some []
  | some (.arr items) => items.mapM textOf?
  | some _ => none

/-- The description that a value gives, if it has the right shape. -/
def metaOf? (value : Json) : Option PolicyMeta := do
  let label ← (value.member? "label").bind textOf?
  let description ← (value.member? "description").bind textOf?
  let dependencies ← dependenciesOf? (value.member? "dependencies")
  return ⟨label, description, dependencies⟩

/-- The description in a file; none if the file cannot be opened or says something else. -/
def readMeta (view : View) (path : Path) : Except Fault (Option PolicyMeta) :=
  match view.readText path with
  | .error (.undecodable flaw) => .error (.undecodable flaw)
  | .error _ => .ok none
  | .ok text =>
    match Json.parse text.toList with
    | .error (.longInteger digits) => .error (.longInteger digits)
    | .error _ => .ok none
    | .ok value => .ok (metaOf? value)

/-! ## Policies -/

/-- The id of a policy with its category. -/
def qualifiedId (policy : Policy) : String := policy.category ++ "/" ++ policy.id

/-- The end of the names of documents. -/
def documentSuffix : String := ".md"

/-- The documents of a policy, in the order of their names. -/
def documents (view : View) (policy : Policy) : List Path :=
  (entriesOf view policy.path).filterMap fun
    | (_, .dir) => none
    | (name, _) =>
      if Text.endsWith documentSuffix name then some (policy.path.child name) else none

/-- The names of the directories in a directory. -/
def directoriesIn (view : View) (path : Path) : List String :=
  (entriesOf view path).filterMap fun
    | (name, .dir) => some name
    | _ => none

/-- The policy in a directory of a category, if there is one. -/
def policyIn (view : View) (category : Path) (id : String) : Except Fault (Option Policy) := do
  let path := category.child id
  let file := path.child "meta.json"
  if view.isFile file then
    return (← readMeta view file).map fun about => ⟨id, category.name, path, about⟩
  else return none

/-- The policies in a category, none if no directory stands there. -/
def policiesIn (view : View) (category : Path) : Except Fault (List Policy) := do
  if ← view.askDir category then
    let found ← (directoriesIn view category).mapM (policyIn view category)
    return found.filterMap fun policy => policy
  else return []

/-- The categories below a root, or the one that is asked for. -/
def categories (view : View) (root : Path) (category : String) : List Path :=
  if category.isEmpty then (directoriesIn view root).map root.child
  else [root.join (.ofString category)]

/-- The policies below a root, or those of one category, in order; none if no directory stands there. -/
def scanDocuments (view : View) (root : Path) (category : String := "") :
    Except Fault (List Policy) := do
  if ← view.askDir root then
    return (← (categories view root category).mapM (policiesIn view)).flatten
  else return []

/-- The first policy with a given id, with or without its category. -/
def find? (view : View) (root : Path) (id : String) : Except Fault (Option Policy) := do
  return (← scanDocuments view root).find? fun p => id == p.qualifiedId || id == p.id

/-! ## Selection -/

/-- The fault of a file that a policy does not cover. -/
def unsupported (policy file : String) : Fault :=
  .fileRejected s!"Unsupported file type for {policy} review: {file}" file

/-- The documents for a test. -/
def testStrategyNames (file : String) : Except Fault (List String) :=
  if Text.endsWith ".ct.test.tsx" file then
    .ok ["10-test-strategy-overview.md", "20-component-test.md"]
  else if Text.endsWith ".ss.test.ts" file then
    .ok ["10-test-strategy-overview.md", "30-snapshot-test.md"]
  else .error (unsupported "test-strategy" file)

/-- The ends of the names of files that stand beside a domain model. -/
def besideDomainModel : List String := [".small.test.ts", ".medium.test.ts", ".dummy.ts"]

/-- The documents for a file of the domain model. -/
def domainModelNames (file : String) : Except Fault (List String) :=
  if besideDomainModel.any (Text.endsWith · file) then
    .error (.fileRejected
      ("Test and dummy files are not reviewed against domain-model: " ++ file) file)
  else if Text.endsWith "repository.ts" file then
    .ok ["10-domain-model-overview.md", "30-repository-interface.md", "40-aggregate-pattern.md"]
  else if Text.endsWith ".ts" file then
    .ok ["10-domain-model-overview.md", "20-entity-design.md", "40-aggregate-pattern.md"]
  else .error (unsupported "domain-model" file)

/-- The document of a policy with a name; it has to be there. -/
def documentNamed (view : View) (policy : Policy) (target name : String) : Except Fault Path := do
  let path := policy.path.child name
  if ← view.askFile path then return path
  else throw (.fileRejected ("Policy document not found: " ++ path.text) target)

/-- The documents that a file is reviewed against. -/
def select (view : View) (policy : Policy) (target : String) : Except Fault (List Path) := do
  let file := (Path.ofString target).name
  match policy.id with
  | "test-strategy" => (← testStrategyNames file).mapM (documentNamed view policy target)
  | "domain-model" => (← domainModelNames file).mapM (documentNamed view policy target)
  | _ =>
    let all := policy.documents view
    if all.isEmpty then
      throw (.fileRejected s!"Policy {policy.qualifiedId} has no documents" target)
    return all

end Policy

end Lintel
