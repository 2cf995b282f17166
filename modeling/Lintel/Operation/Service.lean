import Lintel.Operation.Builtin

/-!
# Operations as tools of a service

A service offers each built-in operation as a tool whose arguments have plain names (`Offer`). A text that
is given for another kind of argument is read as JSON first. What is wrong with a call is told as a refusal
of the tool (`Service.call`).
-/

namespace Lintel.Operation

open Schema (Checked Form)

/-- The kinds of arguments. -/
inductive ArgumentKind where
  | text
  | optionalText
  | truth
  | choice (words : List String)
  | optionalChoice (words : List String)
  | texts
  | optionalTexts
  deriving DecidableEq, Repr

namespace ArgumentKind

/-- Reads one of some words. -/
def word (words : List String) (value : Json) : Checked String :=
  match value with
  | .str s => if words.contains s then .ok s else Schema.refuse (.notLiteral words) value
  | other => Schema.refuse (.notLiteral words) other

/-- Reads an argument and passes it on; null stands for no argument. -/
def read : ArgumentKind → Json → Checked Json
  | text, value => (Schema.text value).map .str
  | optionalText, value =>
    (Schema.optional Schema.text value).map fun s => (s.map Json.str).getD .null
  | truth, value => (Schema.truth value).map .bool
  | choice words, value => (word words value).map .str
  | optionalChoice words, value =>
    (Schema.optional (word words) value).map fun s => (s.map Json.str).getD .null
  | texts, value => (Schema.list Schema.text value).map fun l => .arr (l.map .str)
  | optionalTexts, value =>
    (Schema.optional (Schema.list Schema.text) value).map fun l =>
      (l.map fun l => Json.arr (l.map .str)).getD .null

end ArgumentKind

/-- An argument of a tool: without it, `default` stands for it, or the tool is not called. -/
structure Argument where
  name : String
  kind : ArgumentKind
  default : Option Json := none

/-- A tool that is offered for an operation. -/
structure Offer where
  operation : String
  arguments : List Argument

/-- The words for all parts of the project. -/
def workspaceWords : List String := Workspace.all.map Workspace.name

/-- The words for the parts of the project that hold code. -/
def codeWords : List String := (Workspace.all.filter (·.codeFlaw?.isNone)).map Workspace.name

/-- The argument for the target directories. -/
def targetArgument : Argument := ⟨"target_directories", .texts, none⟩

/-- The tools that are offered. -/
def offers : List Offer :=
  [⟨"list_policy_rules", [⟨"workspace", .optionalChoice workspaceWords, some .null⟩]⟩,
    ⟨"list_policy_documents", [⟨"category", .optionalText, some .null⟩]⟩,
    ⟨"review_custom_static_analysis", [⟨"workspace", .choice workspaceWords, none⟩, targetArgument]⟩,
    ⟨"review_static_analysis", [⟨"workspace", .choice codeWords, none⟩, targetArgument,
      ⟨"analysis_type", .choice (Tool.CodeAnalysis.all.map (·.name)), some (.str "both")⟩]⟩,
    ⟨"review_infra_static_analysis", [targetArgument,
      ⟨"analysis_type", .choice (Tool.InfraAnalysis.choices.map (·.name)), some (.str "all")⟩,
      ⟨"deep_check", .truth, some (.bool false)⟩]⟩,
    ⟨"review_unused_exports", [⟨"workspace", .choice codeWords, none⟩,
      ⟨"target_directories", .optionalTexts, some .null⟩]⟩,
    ⟨"review_qualitative", [⟨"policy_id", .text, none⟩, ⟨"target_file_paths", .texts, none⟩]⟩]

namespace Offer

/-- The names of the arguments that have to be there. -/
def required (offer : Offer) : List String :=
  (offer.arguments.filter (·.default.isNone)).map (·.name)

/-- The value is read as it is: it is a text or a number. -/
def isPlain : Json → Bool
  | .str _ | .int _ | .float _ | .bool _ => true
  | _ => false

/-- The value of an argument, read as JSON if it is a text and the argument is not. -/
def unwrapped (kind : ArgumentKind) (value : Json) : Except Fault Json :=
  match kind, value with
  | .text, value => .ok value
  | _, .str s =>
    match Json.parse s.toList with
    | .ok inner => .ok (if isPlain inner then .str s else inner)
    | .error (.longInteger digits) => .error (.longInteger digits)
    | .error (.misplaced _) => .ok (.str s)
  | _, value => .ok value

/-- The member of a call, unwrapped if it is an argument. -/
def unwrapMember (offer : Offer) (member : String × Json) : Except Fault (String × Json) :=
  match offer.arguments.find? (·.name == member.1) with
  | some argument => (unwrapped argument.kind member.2).map fun value => (member.1, value)
  | none => .ok member

/-- Reads an argument from the members of a call. -/
def readArgument (members : List (String × Json)) (argument : Argument) : Form (String × Json) :=
  match argument.default with
  | some default => do
    return (argument.name, ← Form.field members argument.name argument.kind.read default)
  | none => do
    return (argument.name, ← Form.required members argument.name argument.kind.read)

/-- The arguments of a call that are there. -/
def readCall (offer : Offer) (members : List (String × Json)) :
    Except Fault (List (String × Json)) := do
  let members ← members.mapM offer.unwrapMember
  match (offer.arguments.mapM (readArgument members)).run with
  | .ok arguments => return arguments.filter fun a => !a.2.isNull
  | .error problems =>
    throw (.schema (Schema.report (offer.operation ++ "Arguments") problems))

end Offer

namespace Service

variable {m : Type → Type} [Monad m] {σ : Type}

/-- The refusal of a call for a reason. -/
def refusal (tool : String) (fault : Fault) : Fault :=
  .refusedCall (s!"Error executing tool {tool}: " ++ fault.message)

/-- Calls a tool. -/
def call (context : Context m σ) (tool : String) (members : List (String × Json)) :
    Work m σ (Except Fault String) :=
  match offers.find? (·.operation == tool) with
  | none => return .error (.refusedCall ("Unknown tool: " ++ tool))
  | some offer =>
    match offer.readCall members with
    | .error fault => return .error (refusal tool fault)
    | .ok arguments => do
      let report ← (Registry.builtin context).execute context.room offer.operation (.obj arguments)
      return report.mapError (refusal tool)

/-- The description of the operation behind a tool. -/
def descriptionOf (offer : Offer) : String :=
  ((builtin.find? (·.1 == offer.operation)).map (·.2.2.1)).getD ""

end Service

end Lintel.Operation
