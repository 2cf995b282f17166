import Lintel.Text.Lines
import Lintel.Tool.Report
import Lintel.Unicode.Case

/-!
# Findings about Terraform files

Three tools look at Terraform files: the formatter lists the files that it would change
(`FormatIssue.ofOutput`), the linter prints issues and its own errors (`ConfigIssue.ofOutput`), the
security scanner prints misconfigurations, which are put in order of their severity
(`SecurityIssue.ofOutput`).
-/

namespace Lintel.Tool

/-! ## Format -/

/-- A file that the formatter would change. -/
structure FormatIssue where
  file : String
  deriving DecidableEq, Repr

/-- The files that the formatter lists, one on a line. -/
def FormatIssue.ofOutput (output : String) : List FormatIssue :=
  (((Text.splitLines output.toList).map Text.trimChars).filter (!·.isEmpty)).map fun line =>
    ⟨String.ofList line⟩

/-! ## Lint -/

/-- An issue of the linter. -/
structure ConfigIssue where
  file : Json
  line : Int
  rule : Json
  severity : String
  message : Json

/-- The severity of an issue: that of its rule, else its own, else a warning. -/
def ConfigIssue.severityOf (issue : Json) : Except Fault String := do
  let ofRule ← (← issue.getObject "rule").get "severity" .null
  let chosen ← if ofRule.isVoid then issue.get "severity" .null else pure ofRule
  return Unicode.toLower (chosen.orElse (.str "warning")).shown

/-- One entry of the list of issues. -/
def ConfigIssue.ofEntry (issue : Json) : Except Fault ConfigIssue := do
  let range ← issue.getObject "range"
  let file ← range.getField "filename"
  let line ← (← range.getObject "start").getNumber "line"
  let rule ← (← issue.getObject "rule").getField "name"
  let severity ← ConfigIssue.severityOf issue
  let message ← issue.getField "message"
  return ⟨file, line, rule, severity, message⟩

/-- The issues and the messages of the errors in the output of the linter. -/
def ConfigIssue.ofOutput (output : String) : Except Fault (List ConfigIssue × List Json) := do
  match ← readOutput "tflint" "tflint" output with
  | .obj members => do
    let issues ← (← Json.getElements "issues" (.obj members)).mapM ConfigIssue.ofEntry
    let errors ← (← Json.getElements "errors" (.obj members)).mapM (Json.getField "message")
    return (issues, errors)
  | _ => throw (.badOutput "tflint" (.shape "tflint output is not a JSON object") "")

/-! ## Security -/

/-- The tiers of security, most severe first. -/
inductive SecurityTier where
  | critical
  | high
  | medium
  | low
  | unknown
  deriving DecidableEq, Repr

/-- The place of a tier, the most severe at zero. -/
def SecurityTier.rank : SecurityTier → Nat
  | .critical => 0
  | .high => 1
  | .medium => 2
  | .low => 3
  | .unknown => 4

/-- The word for a tier. -/
def SecurityTier.name : SecurityTier → String
  | .critical => "CRITICAL"
  | .high => "HIGH"
  | .medium => "MEDIUM"
  | .low => "LOW"
  | .unknown => "UNKNOWN"

/-- All tiers in their order. -/
def SecurityTier.all : List SecurityTier := [.critical, .high, .medium, .low, .unknown]

/-- The capital of a character, as far as it is a letter of ASCII; the dotless i and the long s are the
only letters outside ASCII with such a capital. -/
def capitalOf (c : Char) : Char :=
  if c == 'ı' then 'I' else if c == 'ſ' then 'S' else c.toUpper

/-- The tier of a word in capitals or small letters; another word means an unknown one. -/
def SecurityTier.ofWord (word : String) : SecurityTier :=
  let capitals := String.ofList (word.toList.map capitalOf)
  (SecurityTier.all.find? (·.name == capitals)).getD .unknown

/-- The tier that a value gives; a void value means an unknown one. -/
def SecurityTier.ofJson (value : Json) : Except Fault SecurityTier :=
  match value.orElse (.str "") with
  | .str word => .ok (.ofWord word)
  | other => .error (.noAttribute other.typeName "upper")

/-- A misconfiguration. -/
structure SecurityIssue where
  id : Json
  title : Json
  tier : SecurityTier
  message : Json
  resolution : Json
  file : Json

/-- One misconfiguration of a result. -/
def SecurityIssue.ofEntry (result entry : Json) : Except Fault SecurityIssue := do
  let id ← entry.getField "ID"
  let title ← entry.getField "Title"
  let tier ← SecurityTier.ofJson (← entry.get "Severity" .null)
  let message ← entry.getField "Message"
  let resolution ← entry.getField "Resolution"
  let file ← result.getField "Target"
  return ⟨id, title, tier, message, resolution, file⟩

/-- The misconfigurations of one result. -/
def SecurityIssue.ofResult (result : Json) : Except Fault (List SecurityIssue) := do
  (← Json.getElements "Misconfigurations" result).mapM (SecurityIssue.ofEntry result)

/-- The first tier is at least as severe. -/
def SecurityIssue.atLeast (a b : SecurityIssue) : Bool := a.tier.rank ≤ b.tier.rank

/-- The misconfigurations in the output of the scanner, most severe first, otherwise in the order of
the output. -/
def SecurityIssue.ofOutput (output : String) : Except Fault (List SecurityIssue) := do
  match ← readOutput "trivy" "trivy" output with
  | .obj members => do
    let results ← Json.getElements "Results" (.obj members)
    let issues ← results.mapM SecurityIssue.ofResult
    return issues.flatten.mergeSort SecurityIssue.atLeast
  | _ => throw (.badOutput "trivy" (.shape "trivy output is not a JSON object") "")

end Lintel.Tool
