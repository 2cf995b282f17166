import Lintel.Text.Parts
import Lintel.Unicode.Ranges

/-!
# Command lines

The arguments of the program name a command, with options before and after it (`Request.ofArguments`). The
names of options may be shortened; after two hyphens nothing is an option.
-/

namespace Lintel.Cli

/-- The commands of the program. -/
inductive Command where
  | serve
  | list
  | run
  deriving DecidableEq, Repr

namespace Command

/-- The word for a command. -/
def name : Command → String
  | serve => "serve"
  | list => "list"
  | run => "run"

/-- All commands. -/
def all : List Command := [serve, list, run]

end Command

/-- The options. -/
inductive Flag where
  | help
  | version
  | input
  | raw
  deriving DecidableEq, Repr

namespace Flag

/-- The long name of an option. -/
def name : Flag → String
  | help => "--help"
  | version => "--version"
  | input => "--input"
  | raw => "--raw"

end Flag

/-- The options before the command. -/
def mainFlags : List Flag := [.help, .version]

/-- The options after a command. -/
def flagsOf : Command → List Flag
  | .run => [.help, .input, .raw]
  | _ => [.help]

/-- What an argument is: a value, an option, perhaps with a value of its own, something that looks like
an option but is none, or something that could be more than one option. -/
inductive Word where
  | value (text : String)
  | flag (flag : Flag) (given : Option String)
  | unknown
  | unclear
  deriving DecidableEq, Repr

/-- The short name of the option for help, as often as it is repeated. -/
def isShortHelp : List Char → Bool
  | '-' :: 'h' :: '=' :: rest => !rest.isEmpty && rest.all (· == 'h')
  | '-' :: 'h' :: rest => rest.all (· == 'h')
  | _ => false

/-- The text looks like a number below zero. -/
def isNegative : List Char → Bool
  | '-' :: cs =>
    let whole := cs.takeWhile Unicode.isDecimal
    match cs.dropWhile Unicode.isDecimal with
    | [] => !whole.isEmpty
    | '.' :: digits => !digits.isEmpty && digits.all Unicode.isDecimal
    | _ => false
  | _ => false

/-- The name in an argument and the value after an equal sign. -/
def splitGiven (cs : List Char) : String × Option String :=
  match cs.dropWhile (· != '=') with
  | [] => (String.ofList cs, none)
  | _ :: given => (String.ofList (cs.takeWhile (· != '=')), some (String.ofList given))

/-- The options that a name may be short for. -/
def candidates (flags : List Flag) (name : String) : List Flag :=
  match flags.find? (·.name == name) with
  | some flag => [flag]
  | none => flags.filter fun flag => Text.startsWith name flag.name

/-- What an argument with two hyphens at its front is. -/
def longWord (flags : List Flag) (text : String) : Word :=
  let (name, given) := splitGiven text.toList
  match candidates flags name with
  | [flag] => .flag flag given
  | [] => if text.toList.contains ' ' then .value text else .unknown
  | _ => .unclear

/-- What an argument is. -/
def wordOf (flags : List Flag) (text : String) : Word :=
  match text.toList with
  | '-' :: '-' :: _ => longWord flags text
  | ['-'] => .value text
  | '-' :: 'h' :: cs =>
    if isShortHelp ('-' :: 'h' :: cs) then .flag .help none else .unclear
  | '-' :: cs =>
    if isNegative ('-' :: cs) || cs.contains ' ' then .value text else .unknown
  | _ => .value text

/-! ## Requests -/

/-- What a command line asks for. -/
inductive Request where
  | version
  | help (command : Option Command)
  | serve
  | list
  | run (operation input : String) (raw : Bool)
  | refused
  deriving DecidableEq, Repr

/-- What was found after a command so far. -/
structure Found where
  operation : Option String := none
  input : String := "\x7b\x7d"
  raw : Bool := false
  spare : Bool := false

/-- The request that is made once all arguments are read. -/
def Found.request (found : Found) (command : Command) : Request :=
  if found.spare then .refused
  else
    match command, found.operation with
    | .serve, _ => .serve
    | .list, _ => .list
    | .run, some operation => .run operation found.input found.raw
    | .run, none => .refused

/-- Reads a value: the operation, if it is not yet known. -/
def Found.value (found : Found) (command : Command) (text : String) : Found :=
  if command == .run && found.operation.isNone then { found with operation := some text }
  else { found with spare := true }

/-- Reads the arguments after two hyphens. -/
def readPlain (command : Command) (found : Found) (arguments : List String) : Request :=
  if found.operation.isSome then ({ found with spare := true } : Found).request command
  else
    match arguments with
    | [] => .refused
    | first :: rest =>
      let found := found.value command first
      ({ found with spare := found.spare || !rest.isEmpty } : Found).request command

/-- Reads the arguments after a command. -/
def readAfter (command : Command) (found : Found) : List String → Request
  | [] => found.request command
  | "--" :: rest => readPlain command found rest
  | argument :: rest =>
    match wordOf (flagsOf command) argument with
    | .unclear => .refused
    | .unknown => readAfter command { found with spare := true } rest
    | .flag .help none => .help (some command)
    | .flag .raw none => readAfter command { found with raw := true } rest
    | .flag .input (some given) => readAfter command { found with input := given } rest
    | .flag .input none =>
      match rest with
      | [] => .refused
      | next :: rest =>
        match next == "--", wordOf (flagsOf command) next with
        | false, .value given => readAfter command { found with input := given } rest
        | _, _ => .refused
    | .flag _ _ => .refused
    | .value text =>
      let next := found.value command text
      match rest with
      | ["--"] => if next.spare then .refused else next.request command
      | rest => readAfter command next rest

/-- The argument could be more than one option before the command. -/
def isUnclear (argument : String) : Bool := Text.startsWith "--=" argument

/-- Reads the arguments from the first one on; `spare` tells that something could not be used. -/
def readFrom (spare : Bool) : List String → Request
  | [] => .refused
  | "--" :: _ => .refused
  | argument :: rest =>
    match wordOf mainFlags argument with
    | .unclear => .refused
    | .unknown => readFrom true rest
    | .flag .help none => .help none
    | .flag .version none => .version
    | .flag _ _ => .refused
    | .value text =>
      match Command.all.find? (·.name == text) with
      | some command => readAfter command { spare } rest
      | none => .refused

/-- What the arguments of the program ask for. -/
def Request.ofArguments (arguments : List String) : Request :=
  if (arguments.takeWhile (· != "--")).any isUnclear then .refused else readFrom false arguments

end Lintel.Cli
