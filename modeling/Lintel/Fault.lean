import Lintel.Json.Reader
import Lintel.Text.Bytes
import Lintel.Text.Quoted

/-!
# Faults

Everything that can go wrong, by its cause (`Fault`). A fault has a kind (`Fault.kind`) and a message
(`Fault.message`), and the wording of both is here alone.
-/

namespace Lintel

/-- Why the output of a tool cannot be used. -/
inductive BadOutput where
  | nothing (tool : String)
  | notJson (tool : String) (fault : Json.Misplaced)
  | shape (message : String)
  deriving DecidableEq, Repr

/-- Why the file system refuses. -/
inductive FileRefusal where
  | missing
  | isDirectory
  | notDirectory
  | longName
  | denied
  deriving DecidableEq, Repr

/-- The kinds of fault that a rule may raise by itself. -/
inductive RaisedKind where
  | value
  | key
  | runtime
  deriving DecidableEq, Repr

/-- Anything that can go wrong; a `foreign` fault comes from what is plugged in, with a kind of its own, and
an `exit` is the end of the program, which nobody who keeps faults keeps. -/
inductive Fault where
  | invalidInput (message : String)
  | toolFailed (message command : String)
  | badOutput (tool : String) (cause : BadOutput) (printed : String)
  | modelFailed (message : String)
  | fileRejected (message file : String)
  | ruleRejected (message path : String)
  | refusedCall (message : String)
  | noAttribute (type method : String)
  | notIterable (type : String)
  | notNumeric (type : String)
  | notInteger (text : String)
  | longInteger (digits : Nat)
  | noNumber
  | infinity
  | repetition
  | notPath (type : String)
  | notText (index : Nat) (type : String)
  | noProgram
  | outside (text kind : String)
  | undecodable (flaw : Text.Undecodable)
  | file (refusal : FileRefusal) (path : String)
  | embeddedNul (place : String)
  | pattern (message : String)
  | outOfRange (kind : String)
  | raised (kind : RaisedKind) (message : String)
  | unsupported (message : String)
  | schema (message : String)
  | markup (message : String)
  | stepLimit (limit : Int)
  | foreign (kind message : String)
  | exit (kind message : String)
  deriving Repr

namespace Fault

/-- The word for the kind of a fault. -/
def kind : Fault → String
  | .invalidInput _ => "InputValidationError"
  | .toolFailed .. => "ToolInvocationError"
  | .badOutput .. => "ParseError"
  | .modelFailed _ => "UpstreamApiError"
  | .fileRejected .. => "PerFileError"
  | .ruleRejected .. => "RuleLoadError"
  | .refusedCall _ => "ToolError"
  | .noAttribute .. => "AttributeError"
  | .notIterable _ | .notNumeric _ | .notPath _ | .notText .. | .noProgram => "TypeError"
  | .notInteger _ | .longInteger _ | .noNumber | .outside .. | .embeddedNul _ => "ValueError"
  | .infinity | .repetition => "OverflowError"
  | .undecodable _ => "UnicodeDecodeError"
  | .file .missing _ => "FileNotFoundError"
  | .file .isDirectory _ => "IsADirectoryError"
  | .file .notDirectory _ => "NotADirectoryError"
  | .file .longName _ => "OSError"
  | .file .denied _ => "PermissionError"
  | .pattern _ => "error"
  | .outOfRange _ => "IndexError"
  | .raised .value _ => "ValueError"
  | .raised .key _ => "KeyError"
  | .raised .runtime _ => "RuntimeError"
  | .unsupported _ => "NotImplementedError"
  | .schema _ => "ValidationError"
  | .markup _ => "MarkupError"
  | .stepLimit _ => "GraphRecursionError"
  | .foreign kind _ | .exit kind _ => kind

/-- The fault is the end of the program. -/
def isExit : Fault → Bool
  | .exit .. => true
  | _ => false

end Fault

/-- The message for unusable output. -/
def BadOutput.message : BadOutput → String
  | .nothing tool => tool ++ " produced no output"
  | .notJson tool fault => tool ++ " output is not JSON: " ++ fault.message
  | .shape message => message

/-- The reason why a character cannot be read. -/
def Text.Flaw.phrase : Text.Flaw → String
  | .start => "invalid start byte"
  | .continuation => "invalid continuation byte"
  | .cutOff => "unexpected end of data"

/-- The message for bytes that are not text. -/
def Text.Undecodable.message (flaw : Text.Undecodable) : String :=
  let start := flaw.start
  let stop := flaw.start + flaw.count - 1
  let place :=
    if flaw.count == 1 then
      let byte := String.ofList (Text.hexDigits 2 flaw.byte.toNat)
      s!"byte 0x{byte} in position {start}"
    else s!"bytes in position {start}-{stop}"
  "'utf-8' codec can't decode " ++ place ++ ": " ++ flaw.kind.phrase

/-- The words for a refusal of the file system. -/
def FileRefusal.words : FileRefusal → String
  | .missing => "No such file or directory"
  | .isDirectory => "Is a directory"
  | .notDirectory => "Not a directory"
  | .longName => "File name too long"
  | .denied => "Permission denied"

/-- The number of a refusal of the file system. -/
def FileRefusal.number : FileRefusal → Nat
  | .missing => 2
  | .isDirectory => 21
  | .notDirectory => 20
  | .longName => 36
  | .denied => 13

/-- The number and the words of a refusal of the file system. -/
def FileRefusal.phrase (refusal : FileRefusal) : String :=
  let number := refusal.number
  s!"[Errno {number}] " ++ refusal.words

/-- The message of a fault. -/
def Fault.message : Fault → String
  | .invalidInput message => message
  | .toolFailed message _ => message
  | .badOutput _ cause _ => cause.message
  | .modelFailed message => message
  | .fileRejected message _ => message
  | .ruleRejected message _ => message
  | .refusedCall message => message
  | .noAttribute type method => s!"'{type}' object has no attribute '{method}'"
  | .notIterable type => s!"'{type}' object is not iterable"
  | .notNumeric type =>
    s!"int() argument must be a string, a bytes-like object or a real number, not '{type}'"
  | .notInteger text =>
    "invalid literal for int() with base 10: "
      ++ String.ofList ((Text.quoted text).toList.take 200)
  | .longInteger digits => Json.longIntegerMessage digits
  | .noNumber => "cannot convert float NaN to integer"
  | .infinity => "cannot convert float infinity to integer"
  | .repetition => "the repetition number is too large"
  | .notPath type => s!"expected str, bytes or os.PathLike object, not {type}"
  | .notText index type => s!"sequence item {index}: expected str instance, {type} found"
  | .noProgram =>
    "create_subprocess_exec() missing 1 required positional argument: 'program'"
  | .outside text kind => s!"{text} is not a valid {kind}"
  | .undecodable flaw => flaw.message
  | .file refusal path => refusal.phrase ++ ": " ++ Text.quoted path
  | .embeddedNul place => place
  | .pattern message => message
  | .outOfRange kind => kind ++ " index out of range"
  | .raised .key message => Text.quoted message
  | .raised _ message => message
  | .unsupported message => message
  | .schema message => message
  | .markup message => message
  | .stepLimit limit =>
    "Recursion limit of " ++ Number.intText limit ++ " reached without hitting a stop condition."
  | .foreign _ message | .exit _ message => message

/-- The line that names a fault in a report. -/
def Fault.line (fault : Fault) : String := fault.kind ++ ": " ++ fault.message

end Lintel
