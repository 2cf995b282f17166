import Lintel.Number.Binary64

/-!
# JSON values

A value is null, a truth value, a whole number of any size, a binary number, a text, a list or an
object. An object keeps its members in the order in which their names first came (`Json.put`).
-/

namespace Lintel

open Number (Binary64)

/-- A JSON value. -/
inductive Json where
  | null
  | bool (value : Bool)
  | int (value : Int)
  | float (value : Binary64)
  | str (value : String)
  | arr (items : List Json)
  | obj (members : List (String × Json))
  deriving Inhabited

namespace Json

/-- Sets the member `name`: an old one keeps its place. -/
def put (name : String) (value : Json) : List (String × Json) → List (String × Json)
  | [] => [(name, value)]
  | member :: members =>
    if member.1 == name then (name, value) :: members else member :: put name value members

/-- The member `name`. -/
def lookup (name : String) (members : List (String × Json)) : Option Json :=
  (members.find? (·.1 == name)).map (·.2)

/-- The member `name` of a value, if it is an object and has one. -/
def member? (name : String) : Json → Option Json
  | .obj members => lookup name members
  | _ => none

/-- The word for the kind of a value in messages. -/
def typeName : Json → String
  | .null => "NoneType"
  | .bool _ => "bool"
  | .int _ => "int"
  | .float _ => "float"
  | .str _ => "str"
  | .arr _ => "list"
  | .obj _ => "dict"

/-- The value is null. -/
def isNull : Json → Bool
  | .null => true
  | _ => false

/-- The value stands for nothing: null, false, a zero, or something empty. -/
def isVoid : Json → Bool
  | .null => true
  | .bool value => !value
  | .int value => value == 0
  | .float value => value.isZero
  | .str value => value.isEmpty
  | .arr items => items.isEmpty
  | .obj members => members.isEmpty

/-- The value, or `other` if it stands for nothing. -/
def orElse (value other : Json) : Json := if value.isVoid then other else value

end Json

end Lintel
