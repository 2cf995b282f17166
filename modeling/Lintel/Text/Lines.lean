import Lintel.Text.Blank

/-!
# Lines

A text falls into lines at every line break, a carriage return with a line feed counting as one
(`splitLines`). A text that is read from a file has its line ends unified to the line feed
(`unifyNewlines`).
-/

namespace Lintel.Text

/-- The character before the first line of `lines`. -/
def consFirst (c : Char) : List (List Char) → List (List Char)
  | [] => [[c]]
  | line :: lines => (c :: line) :: lines

/-- The lines of a text, without their line breaks; the end of the text needs none. -/
def splitLines : List Char → List (List Char)
  | [] => []
  | '\r' :: '\n' :: cs => [] :: splitLines cs
  | c :: cs => if isLineBreak c then [] :: splitLines cs else consFirst c (splitLines cs)

/-- The lines of a text. -/
def lines (s : String) : List String := (splitLines s.toList).map String.ofList

/-- A carriage return, alone or with its line feed, becomes a line feed. -/
def unifyNewlines : List Char → List Char
  | [] => []
  | '\r' :: '\n' :: cs => '\n' :: unifyNewlines cs
  | '\r' :: cs => '\n' :: unifyNewlines cs
  | c :: cs => c :: unifyNewlines cs

theorem not_mem_unifyNewlines (cs : List Char) : '\r' ∉ unifyNewlines cs := by
  fun_induction unifyNewlines cs <;> simp_all [eq_comm]

/-- The pieces of a text between the occurrences of a character. -/
def splitAtChar (sep : Char) : List Char → List (List Char)
  | [] => [[]]
  | c :: cs => if c = sep then [] :: splitAtChar sep cs else consFirst c (splitAtChar sep cs)

/-- The texts, one after another, with `sep` between neighbours. -/
def joinWith (sep : String) (parts : List String) : String := sep.intercalate parts

/-- The texts as lines, with a line feed between neighbours. -/
def unlines (parts : List String) : String := joinWith "\n" parts

end Lintel.Text
