import Lintel.Check.Source
import Lintel.Check.Targets

/-!
# Runs over files

A run applies rules to the source files of its targets and adds up what it finds (`run`). A file that
cannot be read and a rule that breaks down on a file are kept as errors; the run goes on with the next
rule or file (`checkFile`, `applyRule`). Only a target of which it cannot be told what stands there, and a
rule that ends the program, put an end to the run.
-/

namespace Lintel.Check

open Files (Path Place View)
open Project (EntityIndex)
open Rule (Violation)
open Syntax (Node Source)

/-- A rule that could not be applied to a file. -/
structure RuleError where
  rule : String
  file : String
  error : String
  deriving DecidableEq, Repr

/-- What a run found. -/
structure Outcome where
  violations : List Violation := []
  errors : List RuleError := []
  filesChecked : Nat := 0

/-- Nothing was found and nothing went wrong. -/
def Outcome.success (outcome : Outcome) : Bool :=
  outcome.violations.isEmpty && outcome.errors.isEmpty

/-- How the tree of a source is made from its path and text. -/
abbrev Reading := String → String → Node

/-- What a run comes to: what was found, or the fault that put an end to it, and the index of the
entities. -/
abbrev Course := Except Fault Outcome × Option EntityIndex

/-- Takes one thing after another, up to the first fault. -/
def inTurn {α : Type} (step : Outcome → Option EntityIndex → α → Course) (outcome : Outcome)
    (index : Option EntityIndex) : List α → Course
  | [] => (.ok outcome, index)
  | a :: rest =>
    match step outcome index a with
    | (.ok outcome, index) => inTurn step outcome index rest
    | (.error fault, index) => (.error fault, index)

/-- Adds what a rule finds in a source; if the rule breaks down, that is an error. -/
def applyRule (view : View) (source : Source) (outcome : Outcome) (index : Option EntityIndex)
    (rule : Rule) : Course :=
  match check view rule source index with
  | (.ok violations, index) =>
    (.ok { outcome with violations := outcome.violations ++ violations }, index)
  | (.error fault, index) =>
    if fault.isExit then (.error fault, index)
    else
      let error : RuleError := ⟨rule.id, source.path, fault.line⟩
      (.ok { outcome with errors := outcome.errors ++ [error] }, index)

/-- Adds what the rules that look at a file find in it. -/
def checkFile (view : View) (reading : Reading) (rules : List Rule) (outcome : Outcome)
    (index : Option EntityIndex) (place : Place) : Course :=
  let path := Files.placeText place
  let applicable := rules.filter (·.appliesTo path)
  if applicable.isEmpty then (.ok outcome, index)
  else
    match view.readText (.ofPlace place) with
    | .error fault =>
      let errors := applicable.map fun rule =>
        (⟨rule.id, path, "Cannot read file: " ++ fault.message⟩ : RuleError)
      (.ok { outcome with errors := outcome.errors ++ errors }, index)
    | .ok text =>
      let source := Source.ofText path text (reading path text)
      let counted := { outcome with filesChecked := outcome.filesChecked + 1 }
      inTurn (applyRule view source) counted index applicable

/-- Applies rules to the source files of targets, if these can be found. -/
def run (view : View) (reading : Reading) (rules : List Rule) (targets : List String)
    (index : Option EntityIndex) : Course :=
  match sources view targets with
  | .error fault => (.error fault, index)
  | .ok places => inTurn (checkFile view reading rules) {} index places

end Lintel.Check
