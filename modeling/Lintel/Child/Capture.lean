import Lintel.Text.Bytes

/-!
# Capturing output

What a process prints arrives in pieces on two streams, in any order of the two (`Arrival`). The pieces
are kept until together they are too long (`Capture.accept`); at the end each stream is put together and
read as text (`Capture.text`).
-/

namespace Lintel.Child

open Text (Bytes)

/-- The streams of a process. -/
inductive Stream where
  | out
  | err
  deriving DecidableEq, Repr

/-- A piece of output. -/
structure Arrival where
  stream : Stream
  bytes : Bytes
  deriving DecidableEq, Repr

/-- What has arrived: the number of bytes, and the pieces of the streams, the last one first. -/
structure Capture where
  used : Nat := 0
  out : List Bytes := []
  err : List Bytes := []
  deriving DecidableEq, Repr

namespace Capture

/-- The pieces of a stream, the last one first. -/
def pieces (capture : Capture) : Stream → List Bytes
  | .out => capture.out
  | .err => capture.err

/-- What has arrived with one more piece. -/
def add (capture : Capture) (arrival : Arrival) : Capture :=
  let used := capture.used + arrival.bytes.length
  match arrival.stream with
  | .out => { capture with used, out := arrival.bytes :: capture.out }
  | .err => { capture with used, err := arrival.bytes :: capture.err }

/-- Takes one more piece, unless there are more than `most` bytes then; an empty piece is no piece. -/
def accept (most : Int) (capture : Capture) (arrival : Arrival) : Option Capture :=
  if arrival.bytes.isEmpty then some capture
  else
    let grown := capture.add arrival
    if most < grown.used then none else some grown

/-- Takes pieces in the order in which they arrive; none if they are too long together. -/
def collect (most : Int) (arrivals : List Arrival) : Option Capture :=
  arrivals.foldlM (accept most) {}

/-- The bytes of a stream. -/
def bytes (capture : Capture) (stream : Stream) : Bytes := (capture.pieces stream).reverse.flatten

/-- The text of a stream; bytes that are no characters are replaced. -/
def text (capture : Capture) (stream : Stream) : String :=
  String.ofList (Text.decodeLossy (capture.bytes stream))

end Capture

end Lintel.Child
