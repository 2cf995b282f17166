import Lintel.Bundle.Home
import Lintel.Report.Tools
import Lintel.Review.Conversation
import Lintel.Review.Schedule
import Lintel.Schema.Form
import Lintel.Settings.Variables

/-!
# Settings

The settings say where the project and the policies are, how long commands and reviews may take, and how
long reports may be (`Settings`). They are read from a form (`Settings.form`) whose fields come from given
values, from the environment and from a file of variables, in this order (`Settings.sources`).
-/

namespace Lintel

open Files (Path View)
open Number (Binary64)
open Schema (Checked Form)

/-- The settings. -/
structure Settings where
  projectRoot : Path
  policyRoot : Path
  policyDocsRoot : Path
  infraDir : String
  modelDir : String
  commandTimeout : Seconds
  maxOutputBytes : Int
  toolAttempts : Int
  modelAttempts : Int
  firstDelay : Seconds
  delayFactor : Binary64
  mostDelay : Seconds
  model : String
  temperature : Binary64
  maxTokens : Int
  maxTurns : Int
  fileTimeout : Seconds
  batchTimeout : Seconds
  places : Int
  maxToolOutput : Int
  maxOutput : Int
  tailRatio : Binary64
  logLevel : String
  logJson : Bool

namespace Settings

/-! ## The form -/

/-- What is wrong with a whole number that has to be positive. -/
def wholeFlaw? (n : Int) : Option String := if n ≤ 0 then some "must be positive" else none

/-- What is wrong with a number that has to be positive. -/
def numberFlaw? (x : Binary64) : Option String :=
  if x.le (.zero false) then some "must be positive" else none

/-- What is wrong with a share that has to be between zero and one. -/
def shareFlaw? (x : Binary64) : Option String :=
  if Binary64.zero false < x ∧ x < Binary64.ofInt 1 then none
  else some "tail_ratio must be between 0 and 1 (exclusive)"

/-- Reads a positive whole number. -/
def positive : Json → Checked Int := Schema.ruled wholeFlaw? Schema.whole

/-- Reads a positive time. -/
def time : Json → Checked Seconds := Schema.ruled numberFlaw? Schema.number

/-- Reads a share between zero and one. -/
def share : Json → Checked Binary64 := Schema.ruled shareFlaw? Schema.number

/-- The form for settings; `current` is the current directory. -/
def form (current : Path) (members : List (String × Json)) : Form Settings := do
  let paths := fun (name : String) => Form.field members name Schema.path
  let texts := fun (name : String) => Form.field members name Schema.text
  let wholes := fun (name : String) => Form.field members name Schema.whole
  let counts := fun (name : String) => Form.field members name positive
  let numbers := fun (name : String) => Form.field members name Schema.number
  let times := fun (name : String) => Form.field members name time
  return {
    projectRoot := ← paths "project_root" current
    policyRoot := ← paths "policy_root" Bundle.policyRoot
    policyDocsRoot := ← paths "policy_docs_root" Bundle.policyDocsRoot
    infraDir := ← texts "infra_dir" "infra"
    modelDir := ← texts "domain_model_dir" "server/src/domain/model"
    commandTimeout := ← times "subprocess_timeout" (.ofInt 300)
    maxOutputBytes := ← counts "max_output_bytes" (10 * 1024 * 1024)
    toolAttempts := ← counts "tool_retry_attempts" 2
    modelAttempts := ← counts "llm_retry_attempts" 3
    firstDelay := ← numbers "retry_initial_delay" (.ofInt 1)
    delayFactor := ← numbers "retry_backoff_factor" (.ofInt 2)
    mostDelay := ← numbers "retry_max_delay" (.ofInt 30)
    model := ← texts "model" "claude-haiku-4-5"
    temperature := ← numbers "temperature" (.zero false)
    maxTokens := ← wholes "max_tokens" 4096
    maxTurns := ← counts "max_turns" 15
    fileTimeout := ← times "file_review_timeout" (.ofInt 180)
    batchTimeout := ← times "batch_review_timeout" (.ofInt 600)
    places := ← counts "max_concurrency" 4
    maxToolOutput := ← counts "max_tool_output_chars" 100000
    maxOutput := ← counts "max_output_chars" 20000
    tailRatio := ← Form.field members "tail_ratio" share (.ofDecimal false 85 (-2))
    logLevel := ← texts "log_level" "INFO"
    logJson := ← Form.field members "log_json" Schema.truth false }

/-- The settings when nothing is said. -/
def initial (current : Path) : Settings := (StateT.run (form current []) []).1

/-- The members of the form that give the settings. -/
def members (settings : Settings) : List (String × Json) :=
  [("project_root", .str settings.projectRoot.text),
    ("policy_root", .str settings.policyRoot.text),
    ("policy_docs_root", .str settings.policyDocsRoot.text),
    ("infra_dir", .str settings.infraDir),
    ("domain_model_dir", .str settings.modelDir),
    ("subprocess_timeout", .float settings.commandTimeout),
    ("max_output_bytes", .int settings.maxOutputBytes),
    ("tool_retry_attempts", .int settings.toolAttempts),
    ("llm_retry_attempts", .int settings.modelAttempts),
    ("retry_initial_delay", .float settings.firstDelay),
    ("retry_backoff_factor", .float settings.delayFactor),
    ("retry_max_delay", .float settings.mostDelay),
    ("model", .str settings.model),
    ("temperature", .float settings.temperature),
    ("max_tokens", .int settings.maxTokens),
    ("max_turns", .int settings.maxTurns),
    ("file_review_timeout", .float settings.fileTimeout),
    ("batch_review_timeout", .float settings.batchTimeout),
    ("max_concurrency", .int settings.places),
    ("max_tool_output_chars", .int settings.maxToolOutput),
    ("max_output_chars", .int settings.maxOutput),
    ("tail_ratio", .float settings.tailRatio),
    ("log_level", .str settings.logLevel),
    ("log_json", .bool settings.logJson)]

/-! ## Sources -/

/-- What the names of variables for settings start with. -/
def variableStart : String := "guardrails_"

/-- The name in small letters. -/
def smallName (name : String) : String := Unicode.toLower name

/-- The members that variables give: those with the usual start, whatever their case. -/
def membersOf (bindings : Variables.Bindings) : List (String × Json) :=
  bindings.foldl
    (fun members (name, value) =>
      let name := (smallName name).toList
      match variableStart.toList.isPrefixOf name, value with
      | true, some value =>
        Json.put (String.ofList (name.drop variableStart.length)) (.str value) members
      | _, _ => members)
    []

/-- The members of some sources; an earlier source counts more. -/
def merged : List (List (String × Json)) → List (String × Json)
  | [] => []
  | first :: rest => first ++ merged rest

/-- The name of the file of variables. -/
def variablesFile : String := ".env"

/-- The variables in the file in the current directory; there need not be one. -/
def fileVariables (view : View) (environment : Variables.Bindings) :
    Except Fault Variables.Bindings := do
  let path := Path.ofString variablesFile
  if view.isFile path then
    return (Variables.resolve environment (Variables.read (← view.readText path))).reverse
  else return []

/-- The members for the form, from all sources. -/
def sources (view : View) (environment : Variables.Bindings) (values : List (String × Json)) :
    Except Fault (List (String × Json)) := do
  let file ← fileVariables view environment
  return merged [values, membersOf environment, membersOf file]

/-- Reads the settings from all sources. -/
def load (view : View) (environment : Variables.Bindings) (values : List (String × Json)) :
    Except Fault Settings := do
  match (form (.ofPlace view.current) (← sources view environment values)).run with
  | .ok settings => return settings
  | .error problems => throw (.schema (Schema.summary "" problems))

/-! ## What follows from settings -/

/-- The directory of the infrastructure. -/
def infraRoot (settings : Settings) : Path := settings.projectRoot.join (.ofString settings.infraDir)

/-- How calls of the model are tried again. -/
def modelRetry (settings : Settings) : Retry Seconds :=
  ⟨settings.modelAttempts, settings.firstDelay, settings.delayFactor, settings.mostDelay⟩

/-- How commands are tried again. -/
def toolRetry (settings : Settings) : Retry Seconds :=
  ⟨settings.toolAttempts, settings.firstDelay, settings.delayFactor, settings.mostDelay⟩

/-- How long a conversation may go on. -/
def limits (settings : Settings) : Review.Limits := ⟨settings.maxTurns, settings.modelRetry⟩

/-- How many reviews go on at once, and for how long. -/
def bounds (settings : Settings) : Review.Bounds :=
  ⟨settings.places, settings.fileTimeout, settings.batchTimeout⟩

/-- The tools that a reviewing model may use. -/
def toolset (settings : Settings) (view : View) : Review.Toolset :=
  { view, root := settings.projectRoot, limit := settings.maxToolOutput }

end Settings

end Lintel
