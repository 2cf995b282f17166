import Lintel.Rule.Builtin

/-!
# Declared rules

A rule can be declared by clauses: each one looks at the nodes of a kind and breaks down or reports a
message there (`Clause`). The message is a template with places for what is known of the node
(`Template.fill`).
-/

namespace Lintel.Rule

open Syntax (Cursor Node NodeKind Source)

/-! ## Templates -/

/-- A place in a template: its name between braces. -/
def slot (name : String) : String := "\x7b" ++ name ++ "\x7d"

/-- The name of the nearest class above. -/
def className (source : Source) (c : Cursor) : String :=
  ((c.enclosing? .classLike).map (source.fieldText · "name")).getD ""

/-- The places of a template that come before the names of the entities, with what stands there. -/
def nodeSlots (source : Source) (c : Cursor) : List (String × String) :=
  [("text", source.textOf c.node),
   ("string", source.stringValue c.node),
   ("path", source.path),
   ("name", source.fieldText c.node "name"),
   ("source", source.fieldText c.node "source"),
   ("len", Number.intText source.text.length),
   ("root", source.root.kind.name)]

/-- The template with one place filled. -/
def fillSlot (template : String) (entry : String × String) : String :=
  Text.replace (slot entry.1) entry.2 template

/-- The names of the entities in a message. -/
def entitiesText (names : Option (List String)) : String :=
  match names with
  | none => "-"
  | some names => ",".intercalate names

/-- Fills a template in and goes on with the text; the entities are asked for only if they are named. -/
def fill (source : Source) (c : Cursor) (template : String) (next : String → Visit) : Visit :=
  let text := (nodeSlots source c).foldl fillSlot template
  let finish (text : String) : Visit := next (fillSlot text ("class", className source c))
  if Text.holds (slot "entities") text then
    .withNames fun names => finish (fillSlot text ("entities", entitiesText names))
  else finish text

/-! ## Clauses -/

/-- What a clause does at a node. -/
inductive Action where
  | raise (kind : RaisedKind) (message : String)
  | report (template : String) (severity : Option Json)

/-- What to do at the nodes of a kind. -/
structure Clause where
  kind : String
  action : Action

/-- The visit with another one after it. -/
def Visit.andThen : Visit → Visit → Visit
  | .done, second => second
  | .report finding next, second => .report finding (next.andThen second)
  | .fail fault, _ => .fail fault
  | .consult next, second => .consult fun names => (next names).andThen second
  | .lookBack next, second => .lookBack fun found => (next found).andThen second

/-- The report of a message whose severity is still to be read. -/
def reportAs (node : Node) (severity : Option Json) (message : String) : Visit :=
  match severity with
  | none => .at node message
  | some value =>
    match Severity.ofJson value with
    | .ok severity => .report ⟨node, message, some severity⟩ .done
    | .error fault => .fail fault

/-- What a clause does at a node. -/
def Clause.visit (source : Source) (c : Cursor) (clause : Clause) : Visit :=
  if c.node.kind.name == clause.kind then
    match clause.action with
    | .raise kind message => .fail (.raised kind message)
    | .report template severity => fill source c template (reportAs c.node severity)
  else .done

/-- A rule that is declared by clauses. -/
structure Declaration where
  pattern : Option String := none
  id : String := ""
  severity : Json := .str "error"
  clauses : List Clause := []

namespace Declaration

/-- Tries the clauses in their order. -/
def visit (declaration : Declaration) (source : Source) (c : Cursor) : Visit :=
  (declaration.clauses.map (Clause.visit source c)).foldr Visit.andThen .done

/-- The rule; its pattern is read before its severity. -/
def rule (declaration : Declaration) : Except Fault Rule := do
  let pattern ← declaration.pattern.mapM PathPattern.read
  let severity ← Severity.ofJson declaration.severity
  return { id := declaration.id, pattern, visitor := declaration.visit, severity }

end Declaration

/-- The built-in rule with an id, or a fault that names the id. -/
def builtinNamed (id : String) : Except Fault Rule :=
  match builtin? id with
  | some rule => .ok rule
  | none => .error (.raised .key id)

end Lintel.Rule
