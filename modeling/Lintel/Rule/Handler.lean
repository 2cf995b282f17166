import Lintel.Rule.DomainModel

/-!
# Rules of handlers

An exported handler catches what its body throws (`tryCatchRequired`). A handler may be an arrow
function that makes an arrow function; the innermost one counts (`innerBody?`).
-/

namespace Lintel.Rule

open Syntax (Cursor Node NodeKind Source kindOf)

/-- The block of the innermost of nested arrow functions; none if the innermost has no block or the
node is no arrow function. -/
def innerBody? (node : Node) : Option Node :=
  if node.kind == .arrowFunction then
    match _h : node.child? "body" with
    | none => none
    | some body =>
      if body.kind == .arrowFunction then innerBody? body
      else if body.kind == .block then some body
      else none
  else none
termination_by node.size
decreasing_by exact Node.size_lt_of_child? _h

/-- What is said of a handler. -/
def handlerMessage (name : String) : String :=
  s!"Handler \"{name}\" has no try/catch.\n"
    ++ "- Wrap the body in try/catch to capture unexpected exceptions.\n"
    ++ "- Call logger.error() in the catch clause and return a 500 response."

/-- The report about a declared name, if it is a handler without a try statement in its body. -/
def handlerFinding? (source : Source) (declarator : Node) : Option Finding :=
  let name := source.fieldText declarator "name"
  if declarator.named && declarator.type == "variable_declarator" && Text.endsWith "Handler" name then
    match (declarator.child? "value").bind innerBody? with
    | none => none
    | some body =>
      if (body.childrenOf .trying).isEmpty then some ⟨declarator, handlerMessage name, none⟩
      else none
  else none

/-- Reports exported handlers without a try statement. -/
def visitHandler (source : Source) (c : Cursor) : Visit :=
  match c.node.kind, c.node.child? "declaration" with
  | .exporting, some declaration =>
    if declaration.kind == .variableDeclaration then
      .reports (declaration.children.filterMap (handlerFinding? source))
    else .done
  | _, _ => .done

/-- Exported handlers catch what their bodies throw. -/
def tryCatchRequired : Rule where
  id := "server/handler/try-catch-required"
  pattern := pathPattern "-handler\\.ts$"
  visitor := visitHandler
  metadata :=
    { what := "Exported handlers wrap their body in try/catch"
      why := "Unexpected exceptions must be logged and turned into a 500 response"
      failure := "Reports exported *Handler functions whose body has no top-level try statement" }
  policyPath := "server/handler/try-catch-required.py"

end Lintel.Rule
