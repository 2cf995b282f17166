import Lintel.Json.Text
import Lintel.Text.Bytes

/-!
# Problems of values

A value that does not have the shape asked for has problems, each with its place, its cause and the
value found there (`Problem`). A problem is told in one line (`Problem.line`) or, in a list for one form,
with all that is known of it (`report`).
-/

namespace Lintel.Schema

/-- Why a value is refused. -/
inductive Cause where
  | missing
  | extra
  | notText
  | shortText (least : Nat)
  | notList
  | shortList (least found : Nat)
  | notForm (name : String)
  | notTruth
  | unclearTruth
  | notWhole
  | fraction
  | unreadableWhole
  | longWhole
  | notFinite
  | notNumber
  | unreadableNumber
  | notPath
  | notChoice (choices : List String)
  | notLiteral (choices : List String)
  | rule (message : String)
  deriving DecidableEq, Repr

/-- A count with its noun. -/
def counted (n : Nat) (noun : String) : String :=
  Number.intText n ++ " " ++ noun ++ if n == 1 then "" else "s"

/-- Choices in quotes, with a word before the last one. -/
def listed : List String → String
  | [] => ""
  | [choice] => s!"'{choice}'"
  | [first, last] => s!"'{first}' or '{last}'"
  | first :: rest => s!"'{first}', " ++ listed rest

namespace Cause

/-- The message about a cause. -/
def message : Cause → String
  | missing => "Field required"
  | extra => "Extra inputs are not permitted"
  | notText => "Input should be a valid string"
  | shortText least => "String should have at least " ++ counted least "character"
  | notList => "Input should be a valid list"
  | shortList least found =>
    "List should have at least " ++ counted least "item" ++ " after validation, not "
      ++ Number.intText found
  | notForm name => "Input should be a valid dictionary or instance of " ++ name
  | notTruth => "Input should be a valid boolean"
  | unclearTruth => "Input should be a valid boolean, unable to interpret input"
  | notWhole => "Input should be a valid integer"
  | fraction => "Input should be a valid integer, got a number with a fractional part"
  | unreadableWhole => "Input should be a valid integer, unable to parse string as an integer"
  | longWhole => "Unable to parse input string as an integer, exceeded maximum size"
  | notFinite => "Input should be a finite number"
  | notNumber => "Input should be a valid number"
  | unreadableNumber => "Input should be a valid number, unable to parse string as a number"
  | notPath => "Input is not a valid path for <class 'pathlib.Path'>"
  | notChoice choices | notLiteral choices => "Input should be " ++ listed choices
  | rule message => "Value error, " ++ message

/-- The code of a cause. -/
def code : Cause → String
  | missing => "missing"
  | extra => "extra_forbidden"
  | notText => "string_type"
  | shortText _ => "string_too_short"
  | notList => "list_type"
  | shortList .. => "too_short"
  | notForm _ => "model_type"
  | notTruth => "bool_type"
  | unclearTruth => "bool_parsing"
  | notWhole => "int_type"
  | fraction => "int_from_float"
  | unreadableWhole => "int_parsing"
  | longWhole => "int_parsing_size"
  | notFinite => "finite_number"
  | notNumber => "float_type"
  | unreadableNumber => "float_parsing"
  | notPath => "path_type"
  | notChoice _ => "enum"
  | notLiteral _ => "literal_error"
  | rule _ => "value_error"

end Cause

/-- What is wrong at a place of a value. -/
structure Problem where
  place : List String
  cause : Cause
  found : Json

namespace Problem

/-- The problem as seen from outside, below a name. -/
def below (name : String) (problem : Problem) : Problem :=
  { problem with place := name :: problem.place }

/-- The place of a problem; `whole` stands for the value as a whole. -/
def placeText (whole : String) (problem : Problem) : String :=
  if problem.place.isEmpty then whole else ".".intercalate problem.place

/-- The line about a problem. -/
def line (whole : String) (problem : Problem) : String :=
  problem.placeText whole ++ ": " ++ problem.cause.message

end Problem

/-- The problems in one line. -/
def summary (whole : String) (problems : List Problem) : String :=
  "; ".intercalate (problems.map (Problem.line whole))

/-! ## Reports -/

/-- The greatest number of bytes of a value that is shown in full. -/
def shownBytes : Nat := 50

/-- The characters that fit into a number of bytes. -/
def fitting : Nat → List Char → List Char
  | _, [] => []
  | room, c :: cs =>
    let size := (Text.encodeChar c).length
    if size ≤ room then c :: fitting (room - size) cs else []

/-- The text, or its ends if it is too long. -/
def shortened (text : String) : String :=
  let cs := text.toList
  if (Text.encodeChars cs).length ≤ shownBytes then text
  else
    let half := (shownBytes + 1) / 2
    String.ofList (fitting half cs ++ "...".toList ++ (fitting (half - 1) cs.reverse).reverse)

/-- Where the codes of causes are explained. -/
def helpPlace : String := "https://errors.pydantic.dev/2.14/v/"

/-- The lines about a problem. -/
def Problem.lines (problem : Problem) : List String :=
  let code := problem.cause.code
  let value := shortened problem.found.written
  let type := problem.found.typeName
  (if problem.place.isEmpty then [] else [".".intercalate problem.place])
    ++ [s!"  {problem.cause.message} [type={code}, input_value={value}, input_type={type}]",
        "    For further information visit " ++ helpPlace ++ code]

/-- The report about the problems of a form. -/
def report (form : String) (problems : List Problem) : String :=
  let head := counted problems.length "validation error" ++ " for " ++ form
  "\n".intercalate (head :: problems.flatMap Problem.lines)

end Lintel.Schema
