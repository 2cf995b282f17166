import Lintel.TypeScript.Markup
import Lintel.TypeScript.Statement

/-!
# Programs

The tree of a source text (`program`). What cannot be read as a statement is passed over token by token.
-/

namespace Lintel.TypeScript

open Syntax (Node)

/-- The readings of the grammar, each given the others; `depth` bounds how often they come back to each
other at one place. -/
def grammar (markup : Bool) : Nat → Grammar
  | 0 => ⟨markup, failure, failure, failure, failure, failure, failure, failure, failure⟩
  | depth + 1 =>
    { markup
      expression := fun input => (grammar markup depth).anyExpression input
      assignment := fun input => (grammar markup depth).anyAssignment input
      unary := fun input => (grammar markup depth).anyUnary input
      constructed := fun input => (grammar markup depth).anyConstructed input
      type := fun input => (grammar markup depth).anyType input
      binding := fun input => (grammar markup depth).anyBinding input
      statement := fun input => (grammar markup depth).anyStatement input
      element := fun input => (grammar markup depth).anyElement input }

/-- Reads a token that has no place. -/
def unreadable : Parse Phrase := leaf "ERROR" true fun cs => max (min 1 cs.length) (nameAt cs).length

/-- Reads the line that names the program to run a text with. -/
def startLine : Parse Phrase :=
  leaf "hash_bang_line" true fun cs =>
    if "#!".toList.isPrefixOf cs then (cs.takeWhile fun c => !endsLine c).length else 0

/-- Reads a whole text. -/
def whole (g : Grammar) : Parse Phrase :=
  row [optional startLine, many (g.statement <|> unreadable), comments]

/-- The tree of a text; `markup` says whether it may hold markup. -/
def programOf (markup : Bool) (text : String) : Node :=
  let cs := text.toList
  let g := grammar markup (8 * cs.length + 32)
  let input : Input := ⟨cs, 0⟩
  let start := (gap input).input
  match whole g input with
  | some (children, _) =>
    .mk "program" ((children.head?.map Node.start).getD start.offset) (width cs) none true children
  | none => .mk "program" 0 (width cs) none true []

/-- The tree of the text of a file; only some files may hold markup. -/
def program (path text : String) : Node := programOf (".tsx".toList.isSuffixOf path.toList) text

end Lintel.TypeScript
