import Lintel.Fault
import Lintel.Text.Blank

/-!
# Marked-up text

Text for the screen may hold marks in brackets that switch a style on or off. `Markup.plain` is the text
without its marks; a mark that closes nothing is refused.
-/

namespace Lintel.Cli.Markup

/-- A piece of marked-up text, with its position. -/
inductive Piece where
  | text (chars : List Char)
  | mark (position : Nat) (body : List Char)

/-- The character may open a mark. -/
def opensMark (c : Char) : Bool := c.isLower || c == '#' || c == '/' || c == '@'

/-- The body of the mark that was just opened, and the rest after it. -/
def body? (cs : List Char) : Option (List Char × List Char) :=
  match cs with
  | [] => none
  | c :: rest =>
    let inner := rest.takeWhile fun c => c != '[' && c != ']'
    match opensMark c, rest.dropWhile fun c => c != '[' && c != ']' with
    | true, ']' :: after => some (c :: inner, after)
    | _, _ => none

/-- The pieces for a mark after some backslashes: each pair of them is a backslash, and one that is
left over takes the mark as text. -/
def markPieces (position slashes : Nat) (body : List Char) : List Piece :=
  let kept := List.replicate (slashes / 2) '\\'
  if slashes % 2 == 1 then [.text kept, .text ('[' :: body ++ [']'])]
  else [.text kept, .mark (position + slashes) body]

/-- The pieces of a text; `before` holds the characters since the last mark, backwards. -/
def piecesFrom : Nat → Nat → List Char → List Char → List Piece
  | 0, _, before, _ => [.text before.reverse]
  | fuel + 1, position, before, cs =>
    let slashes := (cs.takeWhile (· == '\\')).length
    match cs.drop slashes with
    | '[' :: rest =>
      match body? rest with
      | some (body, after) =>
        .text before.reverse :: markPieces position slashes body
          ++ piecesFrom fuel (position + slashes + body.length + 2) [] after
      | none =>
        piecesFrom fuel (position + slashes + 1) ('[' :: cs.take slashes ++ before) rest
    | c :: rest => piecesFrom fuel (position + slashes + 1) (c :: cs.take slashes ++ before) rest
    | [] => [.text (cs.take slashes ++ before).reverse]

/-- The short names of styles. -/
def shortStyles : List (String × String) :=
  [("b", "bold"), ("d", "dim"), ("i", "italic"), ("u", "underline"), ("r", "reverse"),
    ("c", "conceal"), ("s", "strike"), ("o", "overline"), ("uu", "underline2")]

/-- The full name of a style. -/
def styleName (cs : List Char) : String :=
  let name := String.ofList ((Text.trimChars cs).map Char.toLower)
  ((shortStyles.find? (·.1 == name)).map (·.2)).getD name

/-- The styles without the one that was opened last under a name, if it is open. -/
def closeLast? (name : String) : List String → Option (List String)
  | [] => none
  | style :: styles =>
    if style == name then some styles else (closeLast? name styles).map (style :: ·)

/-- The open styles after a mark; the last one opened comes first. -/
def afterMark (styles : List String) (position : Nat) (body : List Char) :
    Except Fault (List String) :=
  let place := Number.intText position
  match body.takeWhile (· != '=') with
  | '/' :: name =>
    let name := Text.trimChars name
    if name.isEmpty then
      match styles with
      | _ :: rest => .ok rest
      | [] => .error (.markup s!"closing tag '[/]' at position {place} has nothing to close")
    else
      match closeLast? (styleName name) styles with
      | some rest => .ok rest
      | none =>
        let text := String.ofList body
        .error (.markup s!"closing tag '[{text}]' at position {place} doesn't match any open tag")
  | name => .ok (styleName name :: styles)

/-- The text without backslashes before brackets. -/
def withoutEscapes : List Char → List Char
  | '\\' :: '[' :: cs => '[' :: withoutEscapes cs
  | c :: cs => c :: withoutEscapes cs
  | [] => []

/-- The text of pieces, while some styles are open. -/
def plainFrom (styles : List String) : List Piece → Except Fault (List Char)
  | [] => .ok []
  | .text cs :: pieces => (plainFrom styles pieces).map (withoutEscapes cs ++ ·)
  | .mark position body :: pieces => do
    plainFrom (← afterMark styles position body) pieces

/-- The text without its marks. -/
def plain (text : String) : Except Fault String :=
  (plainFrom [] (piecesFrom (text.length + 1) 0 [] text.toList)).map String.ofList

end Lintel.Cli.Markup
