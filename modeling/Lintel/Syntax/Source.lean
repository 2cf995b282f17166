import Lintel.Syntax.Kind

/-!
# Nodes in their source

A node covers bytes of the source; its text is read from them (`Source.textOf`). The position of a node
is its line, the number of line feeds before it, and its column, the number of characters after the
last of them, both counted from one (`Source.positionOf`).
-/

namespace Lintel.Syntax

open Text (Bytes)

/-- A source file with its syntax tree. -/
structure Source where
  path : String
  text : String
  bytes : Bytes
  root : Node

/-- A line and a column, counted from one. -/
structure Position where
  line : Nat
  column : Nat
  deriving DecidableEq, Repr

/-- The bytes from `start` up to `stop`. -/
def sliceBytes (bytes : Bytes) (start stop : Nat) : Bytes := (bytes.drop start).take (stop - start)

/-- The line feed as a byte. -/
def lineFeed : UInt8 := 10

/-- The number of bytes after the last line feed. -/
def bytesInLine (before : Bytes) : Nat := (before.reverse.takeWhile (· != lineFeed)).length

namespace Source

/-- The source of a text whose tree is known. -/
def ofText (path text : String) (root : Node) : Source := ⟨path, text, Text.encode text, root⟩

/-- The text of a node. -/
def textOf (source : Source) (node : Node) : String :=
  String.ofList (Text.decodeLossy (sliceBytes source.bytes node.start node.stop))

/-- The text of a node that may be missing. -/
def textOf? (source : Source) (node : Option Node) : String :=
  (node.map source.textOf).getD ""

/-- The text of a field, empty if there is none. -/
def fieldText (source : Source) (node : Node) (name : String) : String :=
  source.textOf? (node.child? name)

/-- The text of a node without its first and its last character. -/
def stringValue (source : Source) (node : Node) : String :=
  String.ofList ((source.textOf node).toList.drop 1).dropLast

/-- The position of the first character of a node. -/
def positionOf (source : Source) (node : Node) : Position :=
  let before := source.bytes.take node.start
  let inLine := bytesInLine before
  let start := sliceBytes source.bytes (node.start - inLine) node.start
  ⟨before.count lineFeed + 1, (Text.decodeLossy start).length + 1⟩

/-- The types of children that hold a modifier. -/
def modifierTypes : List String := ["accessibility_modifier", "static", "readonly", "override_modifier"]

/-- The member of a class carries a modifier. -/
def hasModifier (source : Source) (node : Node) (modifier : String) : Bool :=
  node.children.any fun child =>
    modifierTypes.contains child.type && source.textOf child == modifier

end Source

end Lintel.Syntax
