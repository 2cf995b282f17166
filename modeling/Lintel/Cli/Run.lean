import Lintel.Cli.Arguments
import Lintel.Cli.Markup
import Lintel.Cli.Table
import Lintel.Operation.Builtin

/-!
# The program

The program lists the operations or runs one of them, as its arguments ask for (`Cli.run`). It ends with
a code and what it has printed.
-/

namespace Lintel.Cli

open Files (View)
open Operation (Context Shared)

/-- How the program ended; `early` tells that it did so on reading its arguments. -/
structure Ended where
  early : Bool := false
  code : Nat
  out : String := ""
  deriving DecidableEq, Repr

/-! ## Help -/

/-- The name under which the program is called. -/
def programName : String := "guardrails"

/-- The version of the program. -/
def version : String := "0.1.0"

/-- The line about the option for help, with the texts side by side. -/
def helpLine (width : Nat) : String :=
  Table.padded width "  -h, --help" ++ "show this help message and exit"

/-- The help on the program. -/
def mainHelp : List String :=
  [s!"usage: {programName} [-h] [--version] \x7bserve,list,run\x7d ...", "",
    "Architecture policy engine", "",
    "positional arguments:", "  \x7bserve,list,run\x7d",
    "    serve           Serve every operation as an MCP tool over stdio",
    "    list            List the available operations",
    "    run             Run one operation and print its report", "",
    "options:", helpLine 20, "  --version         show program's version number and exit"]

/-- The help on a command. -/
def commandHelp : Command → List String
  | .run =>
    [s!"usage: {programName} run [-h] [--input INPUT] [--raw] operation", "",
      "positional arguments:", "  operation      Operation id, e.g. review_static_analysis", "",
      "options:", helpLine 17, "  --input INPUT  Operation arguments as a JSON object",
      "  --raw          Print the markdown source instead of rendering it"]
  | command =>
    [s!"usage: {programName} {command.name} [-h]", "", "options:", helpLine 14]

/-! ## Output -/

/-- The lines as a text, each with its end. -/
def printed (lines : List String) : String := String.join (lines.map (· ++ "\n"))

/-- The table of the operations. -/
def operationTable : Table where
  title := "Operations"
  columns := [⟨"Id", 30⟩, ⟨"Description", 0⟩, ⟨"Arguments", 0⟩]
  rows := Operation.builtin.map fun (id, _, description, form) =>
    let arguments := ", ".intercalate (form.fields.map (·.first))
    [id, description, if arguments.isEmpty then "-" else arguments]

/-- The end after a complaint with a heading. -/
def complaint (heading message : String) : Except Fault Ended := do
  let text ← Markup.plain (s!"[bold red]{heading}:[/bold red] " ++ message)
  return { code := 2, out := printed [text] }

/-! ## Commands -/

variable {m : Type → Type} [Monad m] {σ : Type}

/-- Runs one operation and prints its report. -/
def runOperation (context : Context m σ) (memory : σ) (operation input : String) :
    m (Except Fault Ended) := do
  match Json.parse input.toList with
  | .error (.longInteger digits) => return .error (.longInteger digits)
  | .error (.misplaced fault) => return complaint "Invalid --input JSON" fault.message
  | .ok arguments =>
    let work := (Registry.builtin context).execute context.room operation arguments
    let (report, _) ← work.run (Shared.ofSettings context.settings memory)
    match report with
    | .ok report => return .ok { code := 0, out := printed [report] }
    | .error (.invalidInput message) => return complaint "Error" message
    | .error fault => return .error fault

/-- Does what a request asks for; `contextOf` gives what operations work with under some settings. -/
def perform (contextOf : Settings → Context m σ) (memory : σ) (settings : Settings) :
    Request → m (Except Fault Ended)
  | .run operation input _ => runOperation (contextOf settings) memory operation input
  | .list => return .ok { code := 0, out := printed operationTable.lines }
  | _ => return .ok { code := 0 }

/-- Runs the program. -/
def run (contextOf : Settings → Context m σ) (memory : σ) (view : View)
    (environment : Variables.Bindings) (arguments : List String) : m (Except Fault Ended) :=
  match Request.ofArguments arguments with
  | .refused => return .ok { early := true, code := 2 }
  | .version => return .ok { early := true, code := 0, out := printed [s!"{programName} {version}"] }
  | .help none => return .ok { early := true, code := 0, out := printed mainHelp }
  | .help (some command) =>
    return .ok { early := true, code := 0, out := printed (commandHelp command) }
  | request =>
    match Settings.load view environment [] with
    | .error fault => return .error fault
    | .ok settings => perform contextOf memory settings request

end Lintel.Cli
