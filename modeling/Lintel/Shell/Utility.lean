import Lintel.Number.Digits
import Lintel.Seconds
import Lintel.Shell.Printf

/-!
# Utilities

A utility is given the file tree, its input and its arguments, and says what it has done (`Done`).
-/

namespace Lintel.Shell

open Text (Bytes)

/-- What a utility has done. -/
structure Done where
  out : Flow := {}
  complaints : List String := []
  status : Nat := 0
  pause : Seconds := .zero
  files : Option Files := none

/-- A utility. -/
abbrev Utility := Files.View → Flow → List String → Done

namespace Done

/-- It ended with a status and did nothing else. -/
def withStatus (status : Nat) : Done := { status }

/-- It printed lines. -/
def ofLines (lines : List String) : Done := { out := .ofLines lines }

/-- It only complained. -/
def complaining (complaint : String) (status : Nat) : Done := { complaints := [complaint], status }

/-- It never ends. -/
def never : Done := { pause := .infinite false }

end Done

/-! ## Options -/

/-- The options and operands of a utility. -/
structure Options where
  flags : List (Char × String) := []
  operands : List String := []
  deriving DecidableEq, Repr

namespace Options

/-- The option is given. -/
def has (options : Options) (flag : Char) : Bool := options.flags.any (·.1 == flag)

/-- The last value of an option. -/
def value? (options : Options) (flag : Char) : Option String :=
  (options.flags.reverse.find? (·.1 == flag)).map (·.2)

/-- The options in one argument; the last one may need the next argument as its value. -/
def inArgument (valued : List Char) : List Char → List (Char × String) × Option Char
  | [] => ([], none)
  | c :: rest =>
    if valued.contains c then
      if rest.isEmpty then ([], some c) else ([(c, String.ofList rest)], none)
    else
      let (flags, open_) := inArgument valued rest
      ((c, "") :: flags, open_)

/-- Reads arguments; the options in `valued` have a value. -/
def read (valued : List Char) : List String → Options
  | [] => {}
  | argument :: rest =>
    if argument == "--" then { operands := rest }
    else
      match argument.toList with
      | '-' :: c :: cs =>
        let (flags, open_) := inArgument valued (c :: cs)
        match open_, rest with
        | some flag, value :: rest =>
          let options := read valued rest
          { options with flags := flags ++ (flag, value) :: options.flags }
        | _, rest =>
          let options := read valued rest
          { options with flags := flags ++ options.flags }
      | _ =>
        let options := read valued rest
        { options with operands := argument :: options.operands }

end Options

/-! ## Input of utilities -/

/-- The flows from names, each with its name, and complaints about the others. -/
def sources (view : Files.View) (input : Flow) (complain : String → FileRefusal → String)
    (names : List String) : List (String × Flow) × List String :=
  let found := names.map fun name => (name, source view input name)
  let flows := found.filterMap fun (name, flow) => flow.toOption.map fun flow => (name, flow)
  let complaints := found.filterMap fun (name, flow) =>
    match flow with
    | .error refusal => some (complain name refusal)
    | .ok _ => none
  (flows, complaints)

/-- A name and why it is refused. -/
def refusedName (name : String) (refusal : FileRefusal) : String := name ++ ": " ++ refusal.words

/-- All input of a utility in one flow: its input if no names are given. -/
def allInput (view : Files.View) (input : Flow) (names : List String) : Flow × List String :=
  let (flows, complaints) :=
    sources view input refusedName (if names.isEmpty then ["-"] else names)
  (flows.foldl (fun all (_, flow) => all ++ flow) {}, complaints)

/-- A utility that changes the whole of its input, which has to end. -/
def ofWhole (valued : List Char) (change : Options → Bytes → Flow) : Utility :=
  fun view input arguments =>
    let options := Options.read valued arguments
    let (flow, complaints) := allInput view input options.operands
    if flow.isEndless then .never
    else { out := change options flow.bytes, complaints, status := if complaints.isEmpty then 0 else 1 }

/-! ## Printing -/

/-- Copies its input. -/
def catUtility : Utility := fun view input arguments =>
  let (out, complaints) := allInput view input (Options.read [] arguments).operands
  { out, complaints, status := if complaints.isEmpty then 0 else 1 }

/-- Prints its arguments; they may have escapes. -/
def echoBuiltin : Utility := fun _ _ arguments =>
  let (bare, words) := match arguments with
    | "-n" :: words => (true, words)
    | words => (false, words)
  let (bytes, ended) := unescape false (" ".intercalate words)
  { out := { bytes := if bare || ended then bytes else bytes ++ [Flow.lineEnd] } }

/-- The options of the program that prints its arguments. -/
def isEchoOption (word : String) : Bool :=
  word.length > 1 && word.startsWith "-" && (word.toList.drop 1).all "neE".toList.contains

/-- Prints its arguments; they may have escapes if an option asks for it. -/
def echoProgram : Utility := fun _ _ arguments =>
  let flags := (arguments.takeWhile isEchoOption).flatMap String.toList
  let text := " ".intercalate (arguments.dropWhile isEchoOption)
  let escapes := (flags.reverse.find? fun c => c == 'e' || c == 'E') == some 'e'
  let (bytes, ended) := if escapes then unescape true text else (Text.encode text, false)
  let bare := ended || flags.contains 'n'
  { out := { bytes := if bare then bytes else bytes ++ [Flow.lineEnd] } }

/-- The complaint about an argument that is no number. -/
def numberComplaint (wide : Bool) (argument : String) : String :=
  match wide, startsNumber argument with
  | false, false => argument ++ ": expected numeric value"
  | false, true => argument ++ ": not completely converted"
  | true, false => s!"‘{argument}’: expected a numeric value"
  | true, true => s!"‘{argument}’: value not completely converted"

/-- The complaint without operands. -/
def missingOperand (name : String) : Done :=
  .complaining s!"missing operand\nTry '{name} --help' for more information." 1

/-- Prints its arguments as a format says. -/
def printfUtility (wide : Bool) : Utility := fun _ _ arguments =>
  match (if arguments.head? == some "--" then arguments.drop 1 else arguments) with
  | [] =>
    if wide then missingOperand "printf" else .complaining "usage: printf format [arg ...]" 2
  | format :: arguments =>
    let printing := (Format.read wide format).print wide arguments
    let wrong := printing.bad.reverse.map (numberComplaint wide)
    let invalid := printing.invalid.map fun kind =>
      if wide then s!"%{kind}: invalid conversion specification" else s!"%{kind}: invalid directive"
    { out := { bytes := printing.bytes.reverse.flatten }
      complaints := wrong ++ invalid.toList
      status := if invalid.isSome && !wide then 2 else if wrong.isEmpty && invalid.isNone then 0 else 1 }

/-- Prints a row of numbers. -/
def seqUtility : Utility := fun _ _ arguments =>
  let numbers := arguments.map fun a => (numberOf a).1
  let (first, step, last) := match numbers with
    | [last] => (1, 1, last)
    | [first, last] => (first, 1, last)
    | first :: step :: last :: _ => (first, step, last)
    | [] => (1, 1, 0)
  let count := if step == 0 then 0 else ((last - first) / step + 1).toNat
  .ofLines ((List.range count).map fun (i : Nat) => Number.intText (first + step * i))

/-- Prints a line again and again. -/
def yesUtility : Utility := fun _ _ arguments =>
  let line := if arguments.isEmpty then "y" else " ".intercalate arguments
  { out := { again := Text.encode (line ++ "\n") } }

/-! ## Time -/

/-- The seconds that an argument stands for. -/
def secondsOf? (argument : String) : Option Seconds :=
  let cs := argument.toList
  let whole := cs.takeWhile Char.isDigit
  let rest := cs.dropWhile Char.isDigit
  let (part, unit) := match rest with
    | '.' :: rest => (rest.takeWhile Char.isDigit, rest.dropWhile Char.isDigit)
    | rest => ([], rest)
  let scale? := match unit with
    | [] | ['s'] => some 1
    | ['m'] => some 60
    | ['h'] => some 3600
    | ['d'] => some 86400
    | _ => none
  let digits := (whole ++ part).foldl (fun n c => n * 10 + (c.toNat - '0'.toNat)) 0
  if argument == "infinity" then some (.infinite false)
  else if (whole ++ part).isEmpty then none
  else scale?.map fun scale => .ofDecimal false (digits * scale) (-part.length)

/-- Waits. -/
def sleepUtility : Utility := fun _ _ arguments =>
  match arguments.mapM secondsOf? with
  | some (first :: rest) => { pause := rest.foldl (fun a b => a + b) first }
  | some [] => missingOperand "sleep"
  | none =>
    let bad := (arguments.find? fun a => (secondsOf? a).isNone).getD ""
    let advice := "\nTry 'sleep --help' for more information."
    .complaining (s!"invalid time interval ‘{bad}’" ++ advice) 1

end Lintel.Shell
