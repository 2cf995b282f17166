import Lintel.Json.Text

/-!
# Messages

A review is a conversation with a chat model. Its messages are the instructions, the request, the
answers of the model and the results of the tools that the model asked for (`Message`).
-/

namespace Lintel.Review

/-- A tool that the model asks for. -/
structure ToolCall where
  name : String
  args : Json := .obj []
  id : Option String := none
  deriving Inhabited

/-- What a tool answers. -/
structure ToolResult where
  name : String
  id : String
  content : String
  failed : Bool := false
  deriving DecidableEq, Repr

/-- A message of a conversation. -/
inductive Message where
  | system (text : String)
  | human (text : String)
  | model (content : Json) (calls : List ToolCall)
  | tool (result : ToolResult)

/-- What a chat model sends back: a message, whose calls of tools may be malformed, or a value that is
no message. -/
inductive Response where
  | message (content : Json) (calls : List ToolCall) (malformed : List Json)
  | other (type : String)

end Lintel.Review
