import Lintel.Fault
import Lintel.Review.Talk
import Lintel.Text.Lines

/-!
# Scripted models

A scripted model answers from a script: replies for the files that a conversation may be about, replies
for all others, and a reply for when they are used up (`Script.reply`). Reviews can be tried out with it.
-/

namespace Lintel.Review

/-- A reply and how long it takes. -/
structure Line where
  delay : Seconds := Seconds.zero
  reply : Reply

/-- What a scripted model is going to say. -/
structure Script where
  byFile : List (String × List Line) := []
  lines : List Line := []
  lastly : Option Line := none

namespace Script

/-- The text of the request in a conversation. -/
def requestIn : List Message → String
  | [] => ""
  | .human text :: _ => text
  | _ :: messages => requestIn messages

/-- The file that a request is about, among some files. -/
def fileIn (request : String) (files : List String) : Option String :=
  (Text.splitAtChar '\n' request.toList).findSome? fun line =>
    files.find? fun file => line == ("- Path: " ++ file).toList

/-- The reply when nothing is left. -/
def silence : Line := ⟨Seconds.zero, .error "no scripted response left"⟩

/-- The next line of some, or the last of all. -/
def next (script : Script) (lines : List Line) : Line × List Line :=
  match lines with
  | line :: rest => (line, rest)
  | [] => (script.lastly.getD silence, [])

/-- The reply to messages. -/
def reply : Talk.Model Script := fun script messages =>
  match fileIn (requestIn messages) (script.byFile.map (·.1)) with
  | some file =>
    let queue := ((script.byFile.find? (·.1 == file)).map (·.2)).getD []
    let (line, rest) := script.next queue
    let byFile := script.byFile.map fun entry => if entry.1 == file then (file, rest) else entry
    ({ script with byFile }, line.delay, line.reply)
  | none =>
    let (line, rest) := script.next script.lines
    ({ script with lines := rest }, line.delay, line.reply)

end Script

end Lintel.Review
