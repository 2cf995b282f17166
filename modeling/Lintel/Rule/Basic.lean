import Lintel.Fault
import Lintel.Json.Text
import Lintel.Pattern.Reader
import Lintel.Policy.DocTags
import Lintel.Syntax.Source
import Lintel.Text.Parts

/-!
# Rules

A rule looks at every node of the files whose paths its pattern accepts (`Rule.appliesTo`). For each
node its visitor says what it does, one thing after another: it reports, breaks down, asks for the names
of the project's entities, or looks at what it has reported so far (`Visit`). A report becomes a violation
at the position of its node.
-/

namespace Lintel.Rule

open Syntax (Cursor Node Source)

/-- How grave a violation is. -/
inductive Severity where
  | error
  | warning
  deriving DecidableEq, Repr

/-- The word for a severity. -/
def Severity.name : Severity → String
  | .error => "error"
  | .warning => "warning"

/-- The severity that a value names. -/
def Severity.ofJson : Json → Except Fault Severity
  | .str "error" => .ok .error
  | .str "warning" => .ok .warning
  | value => .error (.outside value.written "Severity")

/-- A breach of a policy at a place in a file. -/
structure Violation where
  file : String
  line : Nat
  column : Nat
  message : String
  rule : String
  severity : Severity := .error
  what : String := ""
  why : String := ""
  policyPath : String := ""
  deriving DecidableEq, Repr

/-- A breach that a visitor reports at a node; without a severity, that of the rule counts. -/
structure Finding where
  node : Node
  message : String
  severity : Option Severity := none

/-- What a visitor does at a node, one thing after another. The names of the entities are there if there
is a project, and looking them up may fail. -/
inductive Visit where
  | done
  | report (finding : Finding) (next : Visit)
  | fail (fault : Fault)
  | consult (next : Option (Except Fault (List String)) → Visit)
  | lookBack (next : List Violation → Visit)

/-- One report after another. -/
def Visit.reports (findings : List Finding) : Visit := findings.foldr .report .done

/-- One report at a node. -/
def Visit.at (node : Node) (message : String) : Visit := .report ⟨node, message, none⟩ .done

/-- Goes on with the names of the entities; the visit breaks down if they cannot be looked up. -/
def Visit.withNames (next : Option (List String) → Visit) : Visit :=
  .consult fun
    | none => next none
    | some (.ok names) => next (some names)
    | some (.error fault) => .fail fault

/-- What a rule does at each node of a source. -/
abbrev Visitor := Source → Cursor → Visit

/-- A pattern with its text. -/
structure PathPattern where
  text : String
  pattern : Pattern

/-- Reads the pattern of a rule. -/
def PathPattern.read (text : String) : Except Fault PathPattern :=
  match Pattern.read text with
  | .ok pattern => .ok ⟨text, pattern⟩
  | .error flaw => .error (flaw.fault text)

end Lintel.Rule

namespace Lintel

open Rule in
/-- A rule: which files it looks at, what it does at each node, and what it says of itself. -/
structure Rule where
  id : String
  pattern : Option PathPattern
  visitor : Visitor
  severity : Severity := .error
  metadata : Policy.Metadata := {}
  policyPath : String := ""

namespace Rule

/-- The rule looks at the file. -/
def appliesTo (rule : Rule) (path : String) : Bool :=
  match rule.pattern with
  | none => true
  | some p => p.pattern.isFoundIn path

/-- The rule with its identity in a catalog; its own id goes before `id`. -/
def bind (rule : Rule) (id : String) (metadata : Policy.Metadata) (policyPath : String) : Rule :=
  { rule with
    id := if rule.id.isEmpty then id else rule.id
    metadata := metadata
    policyPath := policyPath }

/-- The violation for what a visitor reports. -/
def violation (rule : Rule) (source : Syntax.Source) (finding : Finding) : Violation :=
  let position := source.positionOf finding.node
  { file := source.path
    line := position.line
    column := position.column
    message := finding.message
    rule := rule.id
    severity := finding.severity.getD rule.severity
    what := rule.metadata.what
    why := rule.metadata.why
    policyPath := rule.policyPath }

end Rule

/-- What a file of rules gives when it is loaded: its doc comment and the rule that it exports, if it
exports one, or the reason why it cannot be loaded. -/
structure RuleModule where
  doc : Option String
  exported : Except Fault (Option Rule)

end Lintel
