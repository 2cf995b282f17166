import Lintel.Operation.Params
import Lintel.Report.Lines

/-!
# Operations

An operation has an id, a title, a description, a form for its arguments and a handler that makes a report
(`Operation`). A registry holds operations by their ids (`Registry`). An operation is run only with
arguments that fill its form; what goes wrong after that is told in the report (`Registry.execute`).
-/

namespace Lintel

open Number (Binary64)
open Operation (ArgumentForm)

/-- A named operation; its handler may have effects. -/
structure Operation (m : Type → Type) (α : Type) where
  id : String
  title : String
  description : String
  form : ArgumentForm α
  handler : α → m (Except Fault String)

/-- The operations, in the order in which they were registered. -/
structure Registry (m : Type → Type) (α : Type) where
  operations : List (Operation m α) := []

namespace Registry

variable {m : Type → Type} {α : Type}

/-- The operation with an id. -/
def find? (registry : Registry m α) (id : String) : Option (Operation m α) :=
  registry.operations.find? (·.id == id)

/-- The registry with one more operation; its id has to be new. -/
def register (registry : Registry m α) (operation : Operation m α) : Except Fault (Registry m α) :=
  match registry.find? operation.id with
  | some _ => .error (.raised .value ("Duplicate operation id: " ++ operation.id))
  | none => .ok ⟨registry.operations ++ [operation]⟩

/-- The description of an operation: what is said about its handler, or else its title. -/
def descriptionOf (doc title : String) : String :=
  Text.trim (if doc.isEmpty then title else doc)

/-- The operation with an id; there has to be one. -/
def get (registry : Registry m α) (id : String) : Except Fault (Operation m α) :=
  match registry.find? id with
  | some operation => .ok operation
  | none => .error (.invalidInput ("Unknown operation: " ++ id))

/-- The operation with an id and the parameters that arguments give. -/
def validate (registry : Registry m α) (id : String) (arguments : Json) :
    Except Fault (Operation m α × α) := do
  let operation ← registry.get id
  match operation.form.read arguments with
  | .ok params => return (operation, params)
  | .error problems =>
    throw (.invalidInput (s!"Invalid input for {id}: " ++ Schema.summary "input" problems))

/-- How long a report may be, and which share of it the end gets. -/
structure Room where
  limit : Int
  tailRatio : Binary64

/-- The report of an operation: what its handler reports, or what went wrong. -/
def reportOf (operation : Operation m α) (room : Room) (outcome : Except Fault String) :
    Except Fault String :=
  let report := match outcome with
    | .ok report => report
    | .error fault => Report.failure operation.title fault.line
  Report.truncate report room.limit room.tailRatio

/-- Runs an operation if its arguments are in order. -/
def execute [Monad m] (registry : Registry m α) (room : Room) (id : String) (arguments : Json) :
    m (Except Fault String) :=
  match registry.validate id arguments with
  | .error fault => return .error fault
  | .ok (operation, params) => do
    let outcome ← operation.handler params
    return reportOf operation room outcome

end Registry

end Lintel
