import Lintel.Fault
import Lintel.Review.Message
import Lintel.Text.Blank

/-!
# Responses

Each response of the model is one of three things: a request for tools, the text of the review, or a
failure (`Step.ofResponse`).
-/

namespace Lintel.Review

/-- What a response means for the conversation. -/
inductive Step where
  | tools (calls : List ToolCall)
  | done (text : String)
  | failed (error : String)

/-- The block of a content is of the kind text. -/
def isTextBlock (block : Json) : Bool :=
  match block.member? "type" with
  | some (.str kind) => kind == "text"
  | _ => false

/-- The text in a block of a content, if it is one that carries text. -/
def blockText? : Json → Option Json
  | .str s => some (.str s)
  | block => if isTextBlock block then some ((block.member? "text").getD (.str "")) else none

/-- The texts of some values from the index `index` on, each of which has to be one. -/
def joinTexts (index : Nat) : List Json → Except Fault String
  | [] => .ok ""
  | .str s :: rest => (joinTexts (index + 1) rest).map (s ++ ·)
  | other :: _ => .error (.notText index other.typeName)

/-- The text of a content: the texts of its blocks in a row. -/
def contentText : Json → Except Fault String
  | .str s => .ok s
  | .arr blocks => joinTexts 0 (blocks.filterMap blockText?)
  | _ => .ok ""

/-- The text of a review, without blanks at its ends. -/
def Step.ofText (text : String) : Step :=
  let review := Text.trim text
  if review.isEmpty then .failed "Model returned an empty review" else .done review

/-- What a response means. -/
def Step.ofResponse : Response → Except Fault Step
  | .other type => .ok (.failed ("Unexpected model response type: " ++ type))
  | .message content calls malformed =>
    if !calls.isEmpty then .ok (.tools calls)
    else if !malformed.isEmpty then
      let names := ", ".intercalate (malformed.map Json.shown)
      .ok (.failed ("Model produced malformed tool calls: " ++ names))
    else (contentText content).map Step.ofText

end Lintel.Review
