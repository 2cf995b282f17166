import Lintel.Files.Tree

/-!
# Flows

What flows from one command to another is a row of bytes, after which perhaps another row comes again and
again without end (`Flow`).
-/

namespace Lintel.Shell

open Text (Bytes)

/-- Bytes, and bytes that come again and again after them; they may be those of a file. -/
structure Flow where
  bytes : Bytes := []
  again : Bytes := []
  stored : Bool := false
  deriving DecidableEq, Repr

namespace Flow

/-- The flow never ends. -/
def isEndless (flow : Flow) : Bool := !flow.again.isEmpty

/-- The flow of a text. -/
def ofText (text : String) : Flow := { bytes := Text.encode text }

/-- The flow of lines, each with its end. -/
def ofLines (lines : List String) : Flow := ofText (String.join (lines.map (· ++ "\n")))

/-- The text of a flow that ends. -/
def text (flow : Flow) : String := String.ofList (Text.decodeLossy flow.bytes)

/-- One flow after another. -/
def append (first second : Flow) : Flow :=
  if first.isEndless then first else { bytes := first.bytes ++ second.bytes, again := second.again }

instance : Append Flow := ⟨append⟩

/-- The bytes with a change made to each of them. -/
def map (change : Bytes → Bytes) (flow : Flow) : Flow :=
  { bytes := change flow.bytes, again := change flow.again }

/-- So many bytes of what comes again and again. -/
def repeated (count : Nat) (row : Bytes) : Bytes :=
  match row with
  | [] => []
  | [byte] => List.replicate count byte
  | row => ((List.replicate (count / row.length + 1) row).flatten).take count

/-- The first bytes of a flow. -/
def take (count : Nat) (flow : Flow) : Bytes :=
  flow.bytes.take count ++ repeated (count - flow.bytes.length) flow.again

/-- The flow without its first bytes. -/
def drop (count : Nat) (flow : Flow) : Flow :=
  let spare := count - flow.bytes.length
  if flow.isEndless && spare != 0 then
    let shift := spare % flow.again.length
    { again := flow.again.drop shift ++ flow.again.take shift }
  else { flow with bytes := flow.bytes.drop count }

/-- The byte that ends a line. -/
def lineEnd : UInt8 := 10

/-- The number of bytes of the first lines of a row of bytes, and how many lines are missing. -/
def lineCut : Nat → Nat → Bytes → Nat × Nat
  | 0, size, _ => (size, 0)
  | count, size, [] => (size, count)
  | count + 1, size, byte :: rest =>
    if byte == lineEnd then lineCut count (size + 1) rest else lineCut (count + 1) (size + 1) rest

/-- The first lines of a flow; none if they never end. -/
def takeLines? (count : Nat) (flow : Flow) : Option Bytes :=
  let (size, missing) := lineCut count 0 flow.bytes
  if missing == 0 then some (flow.bytes.take size)
  else if !flow.isEndless then some flow.bytes
  else
    let each := flow.again.count lineEnd
    if each == 0 then none
    else
      let more := repeated ((missing / each + 1) * flow.again.length) flow.again
      some (flow.bytes ++ more.take (lineCut missing 0 more).1)

/-- The lines of bytes, without their ends. -/
def linesOf (bytes : Bytes) : List Bytes :=
  let lines := bytes.splitOn lineEnd
  if lines.getLast? == some [] then lines.dropLast else lines

/-- The bytes of lines, each with its end. -/
def ofByteLines (lines : List Bytes) : Flow := { bytes := lines.flatMap (· ++ [lineEnd]) }

end Flow

/-! ## Sources -/

/-- The flow from a name: a source that is always there, or a file. -/
def source (view : Files.View) (input : Flow) (name : String) : Except FileRefusal Flow :=
  match name with
  | "-" | "/dev/stdin" => .ok input
  | "/dev/null" => .ok {}
  | "/dev/zero" => .ok { again := [0] }
  | _ =>
    if name.isEmpty then .error .missing
    else
      match view.locate (.ofString name) with
      | .ok (_, .file content _) => .ok { bytes := content, stored := true }
      | .ok (_, .dir) => .error .isDirectory
      | .error refusal => .error refusal

end Lintel.Shell
