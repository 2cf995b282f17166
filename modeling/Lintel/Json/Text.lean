import Lintel.Json.Value
import Lintel.Number.Digits
import Lintel.Text.Quoted

/-!
# The text of a value

`Json.written` writes a value inside a list or an object; `Json.shown` writes it on its own, where a
text stands for itself.
-/

namespace Lintel.Json

open Number (intText shortText)

mutual

/-- The text of a value as a part of another. -/
def written : Json → String
  | .null => "None"
  | .bool value => if value then "True" else "False"
  | .int value => intText value
  | .float value => shortText value
  | .str value => Text.quoted value
  | .arr items => "[" ++ ", ".intercalate (writtenItems items) ++ "]"
  | .obj members => "\x7b" ++ ", ".intercalate (writtenMembers members) ++ "\x7d"

/-- The texts of the items of a list. -/
def writtenItems : List Json → List String
  | [] => []
  | item :: items => written item :: writtenItems items

/-- The texts of the members of an object. -/
def writtenMembers : List (String × Json) → List String
  | [] => []
  | (name, value) :: members =>
    (Text.quoted name ++ ": " ++ written value) :: writtenMembers members

end

/-- The text of a value on its own. -/
def shown : Json → String
  | .str value => value
  | value => written value

end Lintel.Json
