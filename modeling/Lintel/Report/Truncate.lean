import Lintel.Fault
import Lintel.Number.Digits

/-!
# Bounded reports

A text that is too long keeps its first and, mostly, its last lines; a marker line stands for what is
left out (`cut`). Room for the longest possible marker is set aside first, so the result fits; only
whole lines are kept at both sides of the marker.
-/

namespace Lintel.Report

open Number (Binary64)

/-- The greatest length of a report. -/
def defaultLimit : Nat := 20000

/-- The share of the room that the last lines get. -/
def defaultTailRatio : Binary64 := .ofDecimal false 85 (-2)

/-- The whole number nearest to a binary number, a half rounded up; none for an infinity and `nan`. -/
def halfUp? (value : Binary64) : Option Int := (value.add (.ofRatio false 1 2)).floor?

/-- Thousands of characters, a half rounded up; the quotient is a binary number, unless there are more
characters than such a number can count. -/
def thousands (count : Nat) : Nat :=
  ((halfUp? (.ofRatio false count 1000)).getD ((count + 500) / 1000 : Nat)).toNat

/-- The line that stands for `count` characters. -/
def omissionMarker (count : Nat) : String :=
  let size := max 1 (thousands count)
  s!"... (about {size}K chars omitted) ..."

/-- The place of an index in a row of `length` elements; below zero it counts from the end. -/
def placeOf (length : Nat) (index : Int) : Nat :=
  if index < 0 then (length + index).toNat else index.toNat

/-- The characters before an index. -/
def upTo (text : List Char) (index : Int) : List Char := text.take (placeOf text.length index)

/-- The characters from an index on. -/
def startingAt (text : List Char) (index : Int) : List Char := text.drop (placeOf text.length index)

/-- The character at an index. -/
def charAt? (text : List Char) (index : Int) : Option Char :=
  if index < -text.length then none else text[placeOf text.length index]?

/-- The text up to its last line feed. -/
def wholeLinesAtStart (text : List Char) : List Char :=
  (text.reverse.dropWhile (· != '\n')).reverse

/-- The text after its first line feed. -/
def afterFirstLine (text : List Char) : List Char := (text.dropWhile (· != '\n')).drop 1

/-- The last `count` characters without the line that the cut leaves incomplete. -/
def wholeLinesAtEnd (text : List Char) (count : Int) : Except Fault (List Char) :=
  let start := text.length - count
  let tail := if count == 0 then [] else startingAt text start
  if tail.isEmpty then .ok []
  else
    match charAt? text (start - 1) with
    | none => .error (.outOfRange "string")
    | some before => .ok (if before == '\n' then tail else afterFirstLine tail)

/-- The first and the last lines that were kept, with the marker between them. -/
def assemble (text head tail : List Char) : List Char :=
  let marker := (omissionMarker (text.length - head.length - tail.length)).toList
  if tail.isEmpty then head ++ marker else head ++ marker ++ '\n' :: tail

/-- The text in at most `limit` characters; `tailShare` says how much of the room the end gets. -/
def cut (tailShare : Int → Except Fault Int) (limit : Int) (text : List Char) :
    Except Fault (List Char) :=
  if text.length ≤ limit then .ok text
  else
    let longest := (omissionMarker text.length).toList
    let room : Int := limit - (longest.length + 1)
    if room ≤ 0 then .ok (upTo longest limit)
    else do
      let tailRoom ← tailShare room
      let head := wholeLinesAtStart (upTo text (room - tailRoom))
      let tail ← wholeLinesAtEnd text tailRoom
      return assemble text head tail

/-- The whole part of a share of the room. -/
def shareOf (ratio : Binary64) (room : Int) : Except Fault Int :=
  let share := (Binary64.ofInt room).mul ratio
  match share.floor?, share with
  | some n, _ => .ok n
  | none, .nan => .error .noNumber
  | none, _ => .error .infinity

/-- The text in at most `limit` characters, the end getting the share `ratio` of the room. -/
def truncate (text : String) (limit : Int) (ratio : Binary64) : Except Fault String :=
  (cut (shareOf ratio) limit text.toList).map String.ofList

end Lintel.Report
