import Lintel.Project.Entities
import Lintel.Rule.Builtin

/-!
# Checking a source

A rule is applied to a source by visiting every node of its tree (`check`). What the visitor reports is
kept in its context (`Context`); the violations come in the order of the reports. If the rule breaks down
at a node, none of its reports count.
-/

namespace Lintel.Check

open Files (View)
open Project (EntityIndex)
open Rule (Violation Visit)
open Syntax (Cursor Source)

/-- What a visitor sees and changes while it goes through a source: the violations so far, and the index
of the entities if there is a project. -/
structure Context where
  violations : List Violation := []
  index : Option EntityIndex

/-- Looks the names of the entities up; without an index there are none to look up. -/
def Context.consult (view : View) (context : Context) :
    Option (Except Fault (List String)) × Context :=
  match context.index with
  | none => (none, context)
  | some index =>
    match index.names view with
    | .ok (names, index) => (some (.ok names), { context with index := some index })
    | .error fault => (some (.error fault), context)

/-- Carries a visit out, up to its end or to the fault at which it breaks down. -/
def runVisit (view : View) (rule : Rule) (source : Source) (context : Context) :
    Visit → Except Fault Unit × Context
  | .done => (.ok (), context)
  | .report finding next =>
    let violations := context.violations ++ [rule.violation source finding]
    runVisit view rule source { context with violations } next
  | .fail fault => (.error fault, context)
  | .consult next =>
    let (names, context) := context.consult view
    runVisit view rule source context (next names)
  | .lookBack next => runVisit view rule source context (next context.violations)

/-- Visits the given nodes, up to the first one at which the rule breaks down. -/
def visitAll (view : View) (rule : Rule) (source : Source) (context : Context) :
    List Cursor → Except Fault Unit × Context
  | [] => (.ok (), context)
  | c :: rest =>
    match runVisit view rule source context (rule.visitor source c) with
    | (.error fault, context) => (.error fault, context)
    | (.ok (), context) => visitAll view rule source context rest

/-- The violations of a rule in a source, none if the rule does not look at the file, and the index after
the visits. -/
def check (view : View) (rule : Rule) (source : Source) (index : Option EntityIndex) :
    Except Fault (List Violation) × Option EntityIndex :=
  if rule.appliesTo source.path then
    let (ended, context) := visitAll view rule source { index } (Syntax.walk source.root)
    (ended.map fun _ => context.violations, context.index)
  else (.ok [], index)

end Lintel.Check
