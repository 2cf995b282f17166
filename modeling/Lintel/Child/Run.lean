import Lintel.Fault
import Lintel.Retry
import Lintel.Settings.Basic
import Lintel.Shell.Machine
import Lintel.Tool.Command

/-!
# Child processes

A command is run by a child process on a file tree: it starts, it is given a time and a number of bytes
to print, and it ends (`Child.run`). Which processes there are is up to the system; that of a `shell` has its
programs. What could not be run to its end is a fault, and may be tried again on the tree as it was left
(`Child.runAgain`).
-/

namespace Lintel.Child

open Files (Path View)
open Shell (Bounds)
open Tool (Printed)

/-- A command: its words, and the directory to run it in. -/
structure Request where
  words : List String
  directory : String
  deriving DecidableEq, Repr

/-- The words of a command on one line. -/
def Request.line (request : Request) : String := " ".intercalate request.words

/-- The view from the directory of a command. -/
def Request.enter (request : Request) (view : View) : Except Fault View :=
  let refused := fun refusal => .error (.file refusal request.directory)
  if request.directory.isEmpty then refused .missing
  else
    match view.locate (.ofString request.directory) with
    | .ok (current, .dir) => .ok { view with current }
    | .ok _ => refused .notDirectory
    | .error refusal => refused refusal

/-- A text with the character that ends the texts of the system. -/
def hasNul (text : String) : Bool := text.toList.contains (Char.ofNat 0)

/-- A program that can be started, with its name and arguments, and the view from its directory. -/
structure Start where
  program : Shell.Program
  name : String
  arguments : List String
  view : View

/-- What a command starts. -/
def Request.start (request : Request) (view : View) : Except Fault Start := do
  match request.words with
  | [] => .error .noProgram
  | name :: arguments =>
    if (request.directory :: request.words).any hasNul then .error (.embeddedNul "embedded null byte")
    let view ← request.enter view
    match Shell.program view name with
    | .ok program => return ⟨program, name, arguments, view⟩
    | .error refusal => .error (.file refusal name)

/-- The fault of a command that could not be run to its end. -/
def failure (request : Request) (message : String) : Fault := .toolFailed message request.line

/-- The message about a command that did not start. -/
def startMessage (request : Request) (fault : Fault) : String :=
  "Cannot start \x60" ++ request.line ++ "\x60: " ++ fault.message

/-- The message about a command that printed too much. -/
def floodMessage (request : Request) (bounds : Bounds) : String :=
  "Output of \x60" ++ request.line ++ "\x60 exceeded " ++ Number.intText bounds.most ++ " bytes"

/-- The message about a command that took too long. -/
def lateMessage (request : Request) (bounds : Bounds) : String :=
  "\x60" ++ request.line ++ "\x60 timed out after " ++ Number.briefText bounds.time ++ "s"

/-- Why a command did not start: refusals of the file system are failures of the tool. -/
def startFault (request : Request) : Fault → Fault
  | .file refusal path => failure request (startMessage request (.file refusal path))
  | fault => fault

/-- What is said of a command whose process has ended. -/
def Request.answer (request : Request) (bounds : Bounds) (capture : Capture) :
    Shell.Finish → Except Fault Printed
  | .ended exit => .ok ⟨exit, capture.text .out, capture.text .err⟩
  | .flood => .error (failure request (floodMessage request bounds))
  | .late => .error (failure request (lateMessage request bounds))

/-- A process that was started: within its bounds, how it ends, what is captured of its output, and the tree
as it is left. -/
abbrev Process := Bounds → Shell.Finish × Capture × Files

/-- What the commands start, or why they do not start. -/
abbrev System := Request → View → Except Fault Process

/-- The process of a program. -/
def Start.process (start : Start) : Process := fun bounds =>
  let world : Shell.World :=
    { bounds, files := start.view.files, scope := { directory := start.view.current } }
  let (finish, world) := world.execute start.program start.name start.arguments
  (finish, world.capture, world.files)

/-- The system whose programs are those of a shell. -/
def shell : System := fun request view => (request.start view).map Start.process

/-- Runs a command: what it printed or what went wrong, and the tree as it was left. -/
def run (bounds : Bounds) (request : Request) (view : View) (system : System := shell) :
    Except Fault Printed × Files :=
  match system request view with
  | .error fault => (.error (startFault request fault), view.files)
  | .ok process =>
    let (finish, capture, files) := process bounds
    (request.answer bounds capture finish, files)

/-- Failures of tools may pass. -/
def mayPass : Fault → Bool
  | .toolFailed .. => true
  | _ => false

/-- Runs a command, again if it fails; none if it is not to be run at all. -/
def runAgain (retry : Retry Seconds) (bounds : Bounds) (request : Request) :
    StateM View (Option (Except Fault Printed)) :=
  retry.run mayPass (fun _ => return ()) fun view =>
    let (result, files) := run bounds request view
    (result, { view with files })

/-- Runs the commands of analyses. -/
def runner (retry : Retry Seconds) (bounds : Bounds) : Tool.Runner (StateM View) := fun command => do
  let request : Request := ⟨command.words, command.directory.text⟩
  match ← runAgain retry bounds request with
  | some (.ok printed) => return .ok printed
  | some (.error fault) => return .error ⟨fault.message, request.line⟩
  | none => return .error ⟨"", request.line⟩

/-- Runs the commands of analyses as settings say. -/
def ofSettings (settings : Settings) : Tool.Runner (StateM View) :=
  runner settings.toolRetry ⟨settings.commandTimeout, settings.maxOutputBytes⟩

end Lintel.Child
