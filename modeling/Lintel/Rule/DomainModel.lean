import Lintel.Rule.Basic

/-!
# Rules of the domain model

Domain models import from the domain and its utilities only (`noExternalImports`) and do not log
(`noLogger`).
-/

namespace Lintel.Rule

open Syntax (Cursor Node NodeKind Source kindOf walk)

/-- The pattern with the given text, if it is one. -/
def pathPattern (text : String) : Option PathPattern := (PathPattern.read text).toOption

/-- Entities, value objects and repositories. -/
def domainModelFiles : Option PathPattern := pathPattern "\\.(entity|vo|repository)\\.ts$"

/-! ## Imports -/

/-- A domain model may import from the path. -/
def isDomainImport (path : String) : Bool :=
  Text.startsWith "@/domain/" path || Text.startsWith "@/util/" path

/-- What is said of an import from outside. -/
def externalImportMessage (path : String) : String :=
  s!"Import \"{path}\" is not allowed in the domain model. "
    ++ "Only @/domain/ and @/util/ may be imported."

/-- Reports an import whose path is outside the domain and its utilities. -/
def visitExternalImport (source : Source) (c : Cursor) : Visit :=
  match c.node.kind, c.node.child? "source" with
  | .importing, some origin =>
    let path := source.stringValue origin
    if isDomainImport path then .done else .at c.node (externalImportMessage path)
  | _, _ => .done

/-- Domain models import only from the domain and its utilities. -/
def noExternalImports : Rule where
  id := "server/domain-model/no-external-imports"
  pattern := domainModelFiles
  visitor := visitExternalImport
  metadata :=
    { what := "Domain models import only from @/domain/ and @/util/"
      why := "The domain layer must not depend on frameworks, infrastructure or other layers"
      failure := "Reports every import whose path is outside @/domain/ and @/util/" }
  policyPath := "server/domain-model/no-external-imports.py"

/-! ## Logging -/

/-- The names that a logger goes by. -/
def loggerNames : List String := ["Logger", "logger"]

/-- The module at the path is a logger. -/
def isLoggerModule (path : String) : Bool :=
  Text.holds "/logger" path || Text.holds "logger/" path

/-- The node names a logger that is imported. -/
def importsLogger (source : Source) (node : Node) : Bool :=
  node.kind == .importSpecifier && loggerNames.contains (source.fieldText node "name")

/-- What is said of an imported logger. -/
def loggerImportMessage : String :=
  "Importing Logger in the domain model is not allowed. "
    ++ "Log from the application layer (use cases, handlers) instead."

/-- What is said of a call of the logger. -/
def loggerCallMessage : String :=
  "Logging from the domain model is not allowed. "
    ++ "Log from the application layer (use cases, handlers) instead."

/-- Reports an import of a logger from a logger module. -/
def visitLoggerImport (source : Source) (node : Node) : Visit :=
  match node.child? "source" with
  | none => .done
  | some origin =>
    if isLoggerModule (source.stringValue origin)
        && (walk node).any fun c => importsLogger source c.node then
      .at node loggerImportMessage
    else .done

/-- Reports a call of a member of `logger`. -/
def visitLoggerCall (source : Source) (node : Node) : Visit :=
  match node.child? "function" with
  | none => .done
  | some callee =>
    let target := callee.child? "object"
    if callee.kind == .memberAccess && kindOf target == .identifier
        && source.textOf? target == "logger" then
      .at node loggerCallMessage
    else .done

/-- Reports imports and calls of a logger. -/
def visitLogger (source : Source) (c : Cursor) : Visit :=
  match c.node.kind with
  | .importing => visitLoggerImport source c.node
  | .call => visitLoggerCall source c.node
  | _ => .done

/-- Domain models do not log. -/
def noLogger : Rule where
  id := "server/domain-model/no-logger"
  pattern := domainModelFiles
  visitor := visitLogger
  metadata :=
    { what := "Domain models do not log"
      why := "Logging is a side effect; it belongs to the application layer (use cases, handlers)"
      failure := "Reports Logger imports and logger.* calls in entities, value objects and repositories" }
  policyPath := "server/domain-model/no-logger.py"

end Lintel.Rule
