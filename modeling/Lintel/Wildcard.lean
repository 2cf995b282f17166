import Lintel.Pattern.Basic

/-!
# Wildcards

In a wildcard a star stands for any text, a question mark for any character, and a bracket for a
character of a set or, after an exclamation mark, outside it. `Wildcard.matchesName` compares a whole
name; case counts.
-/

namespace Lintel.Wildcard

/-- Splits the content of a bracket at the hyphens of its ranges: a hyphen counts after `least`
characters, and after two characters from then on. -/
def chunks : Nat → Nat → List Char → List (List Char)
  | 0, _, cs => [cs]
  | fuel + 1, least, cs =>
    let start := cs.take least
    let rest := cs.drop least
    match rest.dropWhile (· != '-') with
    | [] => [cs]
    | _ :: after => (start ++ rest.takeWhile (· != '-')) :: chunks fuel 2 after

/-- A last chunk that is empty leaves its hyphen to the chunk before it. -/
def closeLast : List (List Char) → List (List Char)
  | [chunk, []] => [chunk ++ ['-']]
  | chunk :: rest => chunk :: closeLast rest
  | [] => []

/-- Joins neighbours whose range would be empty, without its two ends. -/
def dropEmptyRanges : List (List Char) → List (List Char)
  | [] => []
  | chunk :: rest =>
    match dropEmptyRanges rest, chunk.getLast? with
    | (first :: next) :: others, some last =>
      if first < last then (chunk.dropLast ++ next) :: others
      else chunk :: (first :: next) :: others
    | others, _ => chunk :: others

/-- The ranges between neighbours; a hyphen with nothing before it stands for itself. -/
def rangesOf : List (List Char) → List CharItem
  | chunk :: next :: rest =>
    let range := match chunk.getLast?, next.head? with
      | some first, some last => [CharItem.range first.toNat last.toNat]
      | _, _ => [CharItem.range '-'.toNat '-'.toNat]
    range ++ rangesOf (next :: rest)
  | _ => []

/-- The items that chunks stand for. -/
def itemsOf (parts : List (List Char)) : List CharItem :=
  (parts.flatten.map fun c => .range c.toNat c.toNat) ++ rangesOf parts

/-- Any character. -/
def anyChar : CharSet := ⟨[], true, .exact⟩

/-- The characters of a bracket with the given content; an exclamation mark at the front counts among the
characters before the first hyphen. -/
def bracket (content : List Char) : CharSet :=
  let least := if content.head? == some '!' then 2 else 1
  match dropEmptyRanges (closeLast (chunks content.length least content)) with
  | ('!' :: first) :: rest => ⟨itemsOf (first :: rest), true, .exact⟩
  | parts => ⟨itemsOf parts, false, .exact⟩

/-- The content of the bracket that was just opened, and the rest after it; a closing bracket at the
very front belongs to the content. -/
def content? (cs : List Char) : Option (List Char × List Char) :=
  let (mark, cs) := match cs with
    | '!' :: cs => (['!'], cs)
    | cs => ([], cs)
  let (first, cs) := match cs with
    | ']' :: cs => ([']'], cs)
    | cs => ([], cs)
  match cs.dropWhile (· != ']') with
  | [] => none
  | _ :: rest => some (mark ++ first ++ cs.takeWhile (· != ']'), rest)

/-- One character. -/
def exactly (c : Char) : CharSet := ⟨[.range c.toNat c.toNat], false, .exact⟩

/-- The parts of a wildcard: a set for each character of a name, and none for a star. -/
def partsFrom : Nat → List Char → List (Option CharSet)
  | 0, _ => []
  | fuel + 1, cs =>
    match cs with
    | [] => []
    | '*' :: cs => none :: partsFrom fuel cs
    | '?' :: cs => some anyChar :: partsFrom fuel cs
    | '[' :: cs =>
      match content? cs with
      | some (content, rest) => some (bracket content) :: partsFrom fuel rest
      | none => some (exactly '[') :: partsFrom fuel cs
    | c :: cs => some (exactly c) :: partsFrom fuel cs

/-- What stands before, between and after the stars. -/
def segments : List (Option CharSet) → List (List CharSet)
  | [] => [[]]
  | none :: rest => [] :: segments rest
  | some set :: rest =>
    match segments rest with
    | [] => [[set]]
    | first :: others => (set :: first) :: others

/-- The pattern of one character after another. -/
def row (sets : List CharSet) : Pattern := sets.foldr (fun set p => .seq (.one set) p) .empty

/-- The pattern of what stands after stars. It is enough to look for each segment but the last where it stands
first. -/
def afterStars : List (List CharSet) → Pattern
  | [] => .empty
  | [last] => .seq (.repeated 0 none false (.one anyChar)) (row last)
  | [] :: rest => afterStars rest
  | segment :: rest =>
    .seq (.atomic (.seq (.repeated 0 none true (.one anyChar)) (row segment))) (afterStars rest)

/-- The pattern of a wildcard. -/
def toPattern (cs : List Char) : Pattern :=
  match segments (partsFrom (cs.length + 1) cs) with
  | [] => .empty
  | first :: rest => .seq (row first) (afterStars rest)

/-- The wildcard matches the whole name. -/
def matchesName (wildcard name : String) : Bool := (toPattern wildcard.toList).matchesAll name

/-- The text holds a character that makes it a wildcard. -/
def isWildcard (s : String) : Bool := s.toList.any fun c => c == '*' || c == '?' || c == '['

end Lintel.Wildcard
