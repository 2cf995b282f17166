import Lintel.Fault
import Lintel.Number.Integer

/-!
# Looking into a value

The output of a tool may have any shape. Each step into a value says what it needs of it: an object
(`get`), something to go through (`elements`), a number (`wholeNumber`); another kind of value is a
fault that names the kind.
-/

namespace Lintel.Json

open Number (Binary64)

/-- The member `name` of an object, or `default` if it has none. -/
def get (value : Json) (name : String) (default : Json) : Except Fault Json :=
  match value with
  | .obj members => .ok ((lookup name members).getD default)
  | other => .error (.noAttribute other.typeName "get")

/-- The elements of a value: items of a list, names of an object, characters of a text. -/
def elements : Json → Except Fault (List Json)
  | .arr items => .ok items
  | .obj members => .ok (members.map fun member => .str member.1)
  | .str value => .ok (value.toList.map fun c => .str (String.singleton c))
  | value => .error (.notIterable value.typeName)

/-- The whole number of a value: texts are read, places after the point are dropped. -/
def wholeNumber : Json → Except Fault Int
  | .bool value => .ok (if value then 1 else 0)
  | .int value => .ok value
  | .float .nan => .error .noNumber
  | .float value =>
    match value.truncate? with
    | some n => .ok n
    | none => .error .infinity
  | .str value =>
    match Number.readInteger value.toList with
    | .ok n => .ok n
    | .error .notNumber => .error (.notInteger value)
    | .error (.tooLong digits) => .error (.longInteger digits)
  | value => .error (.notNumeric value.typeName)

/-- The whole number of the member `name`, zero if it is missing or void. -/
def getNumber (name : String) (value : Json) : Except Fault Int := do
  wholeNumber ((← value.get name .null).orElse (.int 0))

/-- The member `name`, or an empty object if it is missing or void. -/
def getObject (name : String) (value : Json) : Except Fault Json := do
  return (← value.get name .null).orElse (.obj [])

/-- The elements of the member `name`, none if it is missing or void. -/
def getElements (name : String) (value : Json) : Except Fault (List Json) := do
  elements ((← value.get name .null).orElse (.arr []))

/-- The member `name`, or the empty text if it is missing. -/
def getField (name : String) (value : Json) : Except Fault Json := value.get name (.str "")

end Lintel.Json
