import Lintel.Child.Capture
import Lintel.Seconds
import Lintel.Shell.Disk

/-!
# The world of a script

A script runs in a world of files, a clock and output that is captured (`World`). An action changes the
world and may stop early (`Act`). What belongs to one shell alone is its scope; a subshell has a scope of
its own (`subshell`).
-/

namespace Lintel.Shell

open Files (Place View)
open Child (Capture Stream)
open Text (Bytes)

/-- Why a script stops early. -/
inductive Stop where
  | exit (code : Nat)
  | killed (signal : Nat)
  | leave
  | again
  | flood
  | late
  | stuck
  deriving DecidableEq, Repr

/-- Where output goes. -/
inductive Sink where
  | process (stream : Stream)
  | file (place : Place)
  | nothing
  | buffer (index : Nat)
  deriving DecidableEq, Repr

/-- What belongs to one shell. -/
structure Scope where
  directory : Place
  arguments : List String := []
  bindings : List (String × String) := []
  status : Nat := 0
  strict : Bool := false
  line : Nat := 1
  input : Flow := {}
  sinks : List (Nat × Sink) := [(1, .process .out), (2, .process .err)]

/-- How long a script may run, and how much it may print. -/
structure Bounds where
  time : Seconds
  most : Int

/-- Output that is kept: its pieces, the last one first, and what comes again and again after them. -/
structure Buffer where
  pieces : List Bytes := []
  again : Bytes := []

/-- The flow out of a buffer. -/
def Buffer.flow (buffer : Buffer) : Flow :=
  { bytes := buffer.pieces.reverse.flatten, again := buffer.again }

/-- The buffer with more output. -/
def Buffer.add (buffer : Buffer) (flow : Flow) : Buffer :=
  if buffer.again.isEmpty then ⟨flow.bytes :: buffer.pieces, flow.again⟩ else buffer

/-- The world of a script. -/
structure World where
  bounds : Bounds
  files : Files
  scope : Scope
  clock : Seconds := .zero
  capture : Capture := {}
  buffers : List Buffer := []

/-- An action in the world. -/
abbrev Act := ExceptT Stop (StateM World)

/-- The scope of the shell. -/
def scope : Act Scope := do return (← get).scope

/-- Changes the scope. -/
def modifyScope (change : Scope → Scope) : Act Unit :=
  modify fun world => { world with scope := change world.scope }

/-- Sets the status of the last command. -/
def setStatus (status : Nat) : Act Unit := modifyScope fun scope => { scope with status }

/-- The file tree as the shell sees it. -/
def view : Act View := do
  let world ← get
  return ⟨world.files, world.scope.directory⟩

/-- Lets time pass. -/
def passTime (delay : Seconds) : Act Unit := do
  modify fun world => { world with clock := world.clock.after delay }
  let world ← get
  if world.clock < world.bounds.time then return () else throw .late

/-! ## Output -/

/-- Sends output to a sink. -/
def send (flow : Flow) : Sink → Act Unit
  | .process stream => do
    if flow.isEndless then throw .flood
    let world ← get
    match world.capture.accept world.bounds.most ⟨stream, flow.bytes⟩ with
    | some capture => set { world with capture }
    | none => throw .flood
  | .file place => do
    if flow.isEndless then throw .late
    modify fun world => { world with files := writeTo world.files place true flow.bytes }
  | .nothing => if flow.isEndless then throw .late else return ()
  | .buffer index => modify fun world =>
    { world with buffers := world.buffers.modify index (·.add flow) }

/-- Writes to a stream of the shell. -/
def write (stream : Nat) (flow : Flow) : Act Unit := do
  match (← scope).sinks.find? (·.1 == stream) with
  | some (_, sink) => send flow sink
  | none => return ()

/-- Writes a line to the second stream. -/
def complain (text : String) : Act Unit := write 2 (.ofLines [text])

/-- A complaint of the shell itself, about a line. -/
def shellComplain (text : String) : Act Unit := do
  let scope ← scope
  let name := scope.arguments.head?.getD "sh"
  let line := scope.line
  complain (s!"{name}: {line}: " ++ text)

/-! ## Scopes -/

/-- Runs an action and goes on after it even if it stops early for a reason that `caught` accepts. -/
def catching (act : Act Unit) (caught : Stop → Option (Act Unit)) : Act Unit :=
  tryCatch act fun stop => (caught stop).getD (throw stop)

/-- Runs an action in a scope of its own; only the status is left of it. -/
def subshell (act : Act Unit) : Act Unit := do
  let saved ← scope
  catching act fun
    | .exit code => some (setStatus code)
    | .leave | .again => some (return ())
    | _ => none
  let status := (← scope).status
  modifyScope fun _ => { saved with status }

/-- Runs an action and keeps what it writes to the first stream. -/
def collect (act : Act Unit) : Act Flow := do
  let index := (← get).buffers.length
  modify fun world => { world with buffers := world.buffers ++ [{}] }
  let saved := (← scope).sinks
  modifyScope fun scope => { scope with sinks := (1, .buffer index) :: saved.filter (·.1 != 1) }
  catching act fun
    | .stuck => some (return ())
    | _ => none
  modifyScope fun scope => { scope with sinks := saved }
  let world ← get
  set { world with buffers := world.buffers.take index }
  return (world.buffers[index]?.getD {}).flow

/-! ## Variables -/

/-- The number of every process. -/
def processNumber : String := "4242"

/-- Sets a variable. -/
def assign (name value : String) : Act Unit := modifyScope fun scope =>
  { scope with bindings := (name, value) :: scope.bindings.filter (·.1 != name) }

/-- The value of a variable. -/
def Scope.value? (scope : Scope) (name : String) : Option String :=
  match name with
  | "?" => some (toString scope.status)
  | "$" => some processNumber
  | "#" => some (toString (scope.arguments.length - 1))
  | "@" | "*" => some (" ".intercalate (scope.arguments.drop 1))
  | "PWD" => some (Files.placeText scope.directory)
  | _ =>
    match name.toNat? with
    | some index => scope.arguments[index]?
    | none => (scope.bindings.find? (·.1 == name)).map (·.2)

/-- What a reference to a variable stands for. -/
def Scope.reference (scope : Scope) (name default : String) : String :=
  match name.toList with
  | '#' :: c :: cs => toString ((scope.value? (String.ofList (c :: cs))).getD "").length
  | _ =>
    match scope.value? name with
    | some value => if value.isEmpty then default else value
    | none => default

end Lintel.Shell
