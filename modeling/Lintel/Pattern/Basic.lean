import Lintel.Text.Blank
import Lintel.Unicode.Case
import Lintel.Unicode.Ranges
import Lintel.Unicode.Word

/-!
# Patterns and what they match

A pattern is matched from a place of a text on, and then what comes after it is tried (`run`). If that fails,
the pattern goes back and is matched in its next way: a repetition takes as much as it can first, or as little,
and of two alternatives the first goes before the second. An atomic group is matched in its first way only.
`isFoundIn` looks for a match anywhere.
-/

namespace Lintel

/-- A class of characters. -/
inductive CharClass where
  | digit
  | blank
  | word
  deriving DecidableEq, Repr

/-- One item of a set of characters. -/
inductive CharItem where
  | range (first last : Nat)
  | named (kind : CharClass) (negated ascii : Bool)
  deriving DecidableEq, Repr

/-- Which characters are alike. -/
inductive CaseRule where
  | exact
  | ascii
  | full
  deriving DecidableEq, Repr

/-- A set of characters. -/
structure CharSet where
  items : List CharItem
  negated : Bool := false
  caseRule : CaseRule := .exact
  deriving DecidableEq, Repr

/-- A condition on a place in the text. -/
inductive Anchor where
  | textStart
  | textEnd
  | lineStart
  | lineEnd
  | lastLineEnd
  | wordEdge (negated ascii : Bool)
  deriving DecidableEq, Repr

/-- A pattern. A condition on what is behind has the width of its pattern; `capture` is a group that counts,
`same` stands for the text of such a group, and `ifGroup` chooses by whether it has matched. -/
inductive Pattern where
  | empty
  | one (set : CharSet)
  | seq (first second : Pattern)
  | either (first second : Pattern)
  | repeated (least : Nat) (most : Option Nat) (reluctant : Bool) (body : Pattern)
  | anchor (anchor : Anchor)
  | ahead (negated : Bool) (body : Pattern)
  | behind (negated : Bool) (width : Nat) (body : Pattern)
  | capture (group : Nat) (body : Pattern)
  | atomic (body : Pattern)
  | same (group : Nat) (caseRule : CaseRule)
  | ifGroup (group : Nat) (yes no : Pattern)
  deriving DecidableEq, Repr

/-! ## Characters -/

/-- The character that stands for a character and those that are alike. -/
def CaseRule.fold : CaseRule → Char → Char
  | .exact, c => c
  | .ascii, c => c.toLower
  | .full, c => Unicode.foldChar c

/-- The characters that are alike with a character. -/
def CaseRule.variants : CaseRule → Char → List Char
  | .exact, c => [c]
  | .ascii, c => [c.toLower, c.toUpper]
  | .full, c => Unicode.caseVariants c

/-- The character belongs to the class. -/
def CharClass.contains (kind : CharClass) (ascii : Bool) (c : Char) : Bool :=
  (!ascii || c.toNat < 128) &&
    match kind with
    | .digit => Unicode.isDecimal c
    | .blank => Text.isBlank c
    | .word => Unicode.isWordChar c

/-- The character, or one that is alike, belongs to the item. -/
def CharItem.contains (rule : CaseRule) (c : Char) : CharItem → Bool
  | .range first last => (rule.variants c).any fun v => first ≤ v.toNat && v.toNat ≤ last
  | .named kind negated ascii => kind.contains ascii (rule.fold c) != negated

/-- The character belongs to the set. -/
def CharSet.contains (set : CharSet) (c : Char) : Bool :=
  set.items.any (CharItem.contains set.caseRule c) != set.negated

namespace Pattern

/-- The character at a place belongs to a word. -/
def isWordAt (ascii : Bool) (text : Array Char) (i : Nat) : Bool :=
  (text[i]?.map (CharClass.word.contains ascii)).getD false

/-- The condition holds at a place. -/
def holds (text : Array Char) (i : Nat) : Anchor → Bool
  | .textStart => i == 0
  | .textEnd => i == text.size
  | .lineStart => i == 0 || text[i - 1]? == some '\n'
  | .lineEnd => i == text.size || text[i]? == some '\n'
  | .lastLineEnd => i == text.size || (i + 1 == text.size && text[i]? == some '\n')
  | .wordEdge negated ascii =>
    let before := i != 0 && isWordAt ascii text (i - 1)
    !text.isEmpty && (before != isWordAt ascii text i) != negated

/-! ## Matches -/

/-- A place in the text, and the places where groups have begun and ended on the way there: the beginning of
a group has twice its number, its end the number after that. -/
structure Spot where
  place : Nat
  marks : List (Nat × Nat) := []
  deriving DecidableEq, Repr

namespace Spot

/-- The same groups at another place. -/
def moveTo (s : Spot) (place : Nat) : Spot := { s with place := place }

/-- A group begins or ends here. -/
def mark (s : Spot) (key : Nat) : Spot := { s with marks := (key, s.place) :: s.marks }

/-- Where a mark was left last. -/
def mark? (s : Spot) (key : Nat) : Option Nat := s.marks.lookup key

/-- Where a group begins and ends that has matched; one that has begun again has not. -/
def span? (s : Spot) (group : Nat) : Option (Nat × Nat) := do
  let first ← s.mark? (2 * group)
  let last ← s.mark? (2 * group + 1)
  if first ≤ last then some (first, last) else none

end Spot

/-- What is tried from a spot on; it may fail. -/
abbrev Rest := Spot → Option Spot

/-- A match from a spot on, and what is tried after it. -/
abbrev Step := Spot → Rest → Option Spot

/-- A number of steps. -/
def times (step : Step) : Nat → Step
  | 0, s, rest => rest s
  | count + 1, s, rest => step s fun t => times step count t rest

/-- Up to a number of steps, as many as possible or as few. A step that ends where it has begun, which is the
place `last` then, is the last one. -/
def upTo (step : Step) (reluctant : Bool) : Nat → Option Nat → Step
  | 0, _, s, rest => rest s
  | count + 1, last, s, rest =>
    if last == some s.place then rest s
    else
      let further := fun (_ : Unit) =>
        step s fun t => upTo step reluctant count (some s.place) t rest
      if reluctant then (rest s).orElse further
      else (further ()).orElse fun _ => rest s

/-- The number of steps after the least ones; more of them than there are places do not lead further. -/
def furtherSteps (size least : Nat) : Option Nat → Nat
  | some most => min (most - least) (size + 1)
  | none => size + 1

/-- What has matched elsewhere is there, or is not there; groups that have matched in it remain. -/
def look (negated : Bool) (found : Option Spot) (s : Spot) : Option Spot :=
  match found, negated with
  | some t, false => some (t.moveTo s.place)
  | none, true => some s
  | _, _ => none

/-- The text from `first` up to `last` stands again from a place on. -/
def standsAgain (text : Array Char) (rule : CaseRule) (first last i : Nat) : Bool :=
  (List.range (last - first)).all fun offset =>
    match text[first + offset]?, text[i + offset]? with
    | some c, some d => rule.fold c == rule.fold d
    | _, _ => false

/-- Matches a pattern from a spot on and goes on, in the first way that does not fail. -/
def run (text : Array Char) : Pattern → Step
  | .empty, s, rest => rest s
  | .one set, s, rest =>
    match text[s.place]? with
    | some c => if set.contains c then rest (s.moveTo (s.place + 1)) else none
    | none => none
  | .seq p q, s, rest => run text p s fun t => run text q t rest
  | .either p q, s, rest => (run text p s rest).orElse fun _ => run text q s rest
  | .repeated least most reluctant p, s, rest =>
    times (run text p) least s fun t =>
      upTo (run text p) reluctant (furtherSteps text.size least most) none t rest
  | .anchor condition, s, rest => if holds text s.place condition then rest s else none
  | .ahead negated p, s, rest => (look negated (run text p s some) s).bind rest
  | .behind negated width p, s, rest =>
    let found := if width ≤ s.place then run text p (s.moveTo (s.place - width)) some else none
    (look negated found s).bind rest
  | .capture group p, s, rest =>
    run text p (s.mark (2 * group)) fun t => rest (t.mark (2 * group + 1))
  | .atomic p, s, rest => (run text p s some).bind rest
  | .same group rule, s, rest =>
    match s.span? group with
    | some (first, last) =>
      if standsAgain text rule first last s.place then rest (s.moveTo (s.place + (last - first))) else none
    | none => none
  | .ifGroup group yes no, s, rest =>
    if (s.span? group).isSome then run text yes s rest else run text no s rest

/-- The pattern matches from the start of the text up to its end. -/
def matchesAll (p : Pattern) (text : String) : Bool :=
  let text := text.toList.toArray
  (run text p ⟨0, []⟩ fun s => if s.place == text.size then some s else none).isSome

/-- The pattern matches somewhere in the text. -/
def isFoundIn (p : Pattern) (text : String) : Bool :=
  let text := text.toList.toArray
  (List.range (text.size + 1)).any fun i => (run text p ⟨i, []⟩ some).isSome

end Pattern

end Lintel
