import Lintel.Syntax.Tree
import Lintel.Text.Blank

/-!
# Reading source text

A reading takes characters from the front of the text and gives a row of nodes (`Phrase`), or fails and
takes nothing. Between two tokens there may be blanks and comments (`gap`). A comment belongs to the
smallest node that has something on both sides of it: a node starts at its first token, and what stands
before it is handed to the node around (`node`).
-/

namespace Lintel.TypeScript

open Syntax (Node)

/-- What is left of a text, and the byte at which it starts. -/
structure Input where
  rest : List Char
  offset : Nat := 0

/-- A reading of the front of the text. -/
abbrev Parse := StateT Input Option

/-- A row of nodes. -/
abbrev Phrase := List Node

/-- The number of bytes of some characters. -/
def width (cs : List Char) : Nat := cs.foldl (fun n c => n + c.utf8Size) 0

/-- The input after `count` characters. -/
def Input.drop (input : Input) (count : Nat) : Input :=
  ⟨input.rest.drop count, input.offset + width (input.rest.take count)⟩

/-! ## Gaps -/

/-- The character separates tokens and does nothing else. -/
def isSpace (c : Char) : Bool :=
  Text.isBlank c || c == '\uFEFF' || c == '\u2060' || c == '\u200B'

/-- The character ends a comment that runs to the end of its line. -/
def endsLine (c : Char) : Bool := c == '\n' || c == '\r' || c == '\u2028' || c == '\u2029'

/-- The number of characters up to the end of a comment between `/*` and `*/`. -/
def blockLength : List Char → Nat
  | [] => 0
  | '*' :: '/' :: _ => 2
  | _ :: cs => blockLength cs + 1

/-- The number of characters of the comment at the front. -/
def commentLength? : List Char → Option Nat
  | '/' :: '/' :: cs => some (2 + (cs.takeWhile fun c => !endsLine c).length)
  | '/' :: '*' :: cs => some (2 + blockLength cs)
  | _ => none

/-- What stands before the next token: its comments, whether a line ends in it, and what is left. -/
structure Gap where
  comments : Phrase
  hasLineEnd : Bool
  input : Input

/-- A node without children over the next `count` characters. -/
def leafOf (type : String) (named : Bool) (input : Input) (count : Nat) : Node :=
  .mk type input.offset (input.drop count).offset none named []

/-- The gap at the front; `fuel` is at least the number of characters. -/
def gapFrom : Nat → Input → Gap
  | 0, input => ⟨[], false, input⟩
  | fuel + 1, input =>
    match input.rest with
    | [] => ⟨[], false, input⟩
    | c :: cs =>
      if isSpace c then
        let gap := gapFrom fuel (input.drop 1)
        { gap with hasLineEnd := gap.hasLineEnd || endsLine c }
      else
        match commentLength? (c :: cs) with
        | none => ⟨[], false, input⟩
        | some count =>
          let gap := gapFrom fuel (input.drop count)
          { gap with
            comments := leafOf "comment" true input count :: gap.comments
            hasLineEnd := gap.hasLineEnd || (input.rest.take count).any endsLine }

/-- The gap at the front. -/
def gap (input : Input) : Gap := gapFrom (input.rest.length + 1) input

/-- Passes over the gap and gives its comments. -/
def comments : Parse Phrase := fun input =>
  let found := gap input
  some (found.comments, found.input)

/-- Goes on only if no line ends before the next token. -/
def sameLine : Parse Unit := fun input =>
  if (gap input).hasLineEnd then none else some ((), input)

/-- What stands at the next token. -/
def upcoming : Parse (List Char) := fun input => some ((gap input).input.rest, input)

/-- Goes on only if what stands at the next token satisfies `p`. -/
def check (p : List Char → Bool) : Parse Unit := do
  if p (← upcoming) then pure () else failure

/-! ## Nodes -/

/-- A node over a row of children; it starts and ends with them. -/
def spanning (type : String) (children : Phrase) : Node :=
  let start := (children.head?.map Node.start).getD 0
  let stop := (children.getLast?.map Node.stop).getD 0
  .mk type start stop none true children

/-- Reads a node of a type from its children; the comments before it stay outside. -/
def node (type : String) (children : Parse Phrase) : Parse Phrase := do
  let before ← comments
  let found ← children
  return before ++ [spanning type found]

/-- The row with its last node in a field. -/
def inField (name : String) (phrase : Phrase) : Phrase :=
  phrase.dropLast ++ (phrase.getLast?.map (Node.inField name)).toList

/-- Reads a row whose last node fills a field. -/
def field (name : String) (phrase : Parse Phrase) : Parse Phrase := inField name <$> phrase

/-- A node of a type over the last node of a row and what follows it. -/
def wrap (type : String) (left more : Phrase) : Phrase :=
  left.dropLast ++ [spanning type (left.getLast?.toList ++ more)]

/-! ## Rows -/

/-- Reads one row after another. -/
def row (parts : List (Parse Phrase)) : Parse Phrase := List.flatten <$> parts.mapM id

/-- Reads a row if it is there. -/
def optional (phrase : Parse Phrase) : Parse Phrase := phrase <|> pure []

/-- Reads a row as often as it is there, at most `fuel` times and each time taking something. -/
def manyUpTo (phrase : Parse Phrase) : Nat → Parse Phrase
  | 0 => pure []
  | fuel + 1 => fun input =>
    match phrase input with
    | none => some ([], input)
    | some (found, next) =>
      if next.rest.length < input.rest.length then
        (do return found ++ (← manyUpTo phrase fuel) : Parse Phrase) next
      else some ([], input)

/-- Reads a row as often as it is there. -/
def many (phrase : Parse Phrase) : Parse Phrase := fun input =>
  manyUpTo phrase input.rest.length input

/-- Reads rows with separators between them, none or more. -/
def separated (separator phrase : Parse Phrase) : Parse Phrase :=
  optional (row [phrase, many (row [separator, phrase])])

/-- Goes on only if `phrase` can be read here, and takes nothing. -/
def ahead (phrase : Parse Phrase) : Parse Unit := fun input =>
  (phrase input).map fun _ => ((), input)

/-- Goes on only if `phrase` cannot be read here. -/
def notAhead (phrase : Parse Phrase) : Parse Unit := fun input =>
  if (phrase input).isSome then none else some ((), input)

end Lintel.TypeScript
