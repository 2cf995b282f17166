import Lintel.Number.Binary64
import Lintel.Text.Blank
import Lintel.Unicode.Ranges

/-!
# Whole numbers in text

`readInteger` reads a whole number: blanks around it, a sign, and decimal digits of any script with
single low lines between them. The information separators are not blank here.
-/

namespace Lintel.Number

/-- Why a text is not a whole number. -/
inductive IntegerFlaw where
  | notNumber
  | tooLong (digits : Nat)
  deriving DecidableEq, Repr

/-- The greatest number of digits that are read. -/
def maxIntegerDigits : Nat := 4300

/-- The character may stand around a number. -/
def isNumberBlank (c : Char) : Bool :=
  Text.isBlank c && !(0x1c ≤ c.toNat && c.toNat ≤ 0x1f)

/-- The digits at the front with single low lines between them, and the rest; none if no digit comes
where one must. `needed` says that a digit must come. -/
def groupedDigits? (needed : Bool) : List Char → Option (List Nat × List Char)
  | [] => if needed then none else some ([], [])
  | c :: cs =>
    match Unicode.digitValue? c with
    | some value => (groupedDigits? false cs).map fun (values, rest) => (value :: values, rest)
    | none =>
      if needed then none
      else if c == '_' then groupedDigits? true cs
      else some ([], c :: cs)

/-- The number with the given digits, most significant first. -/
def ofDigits (digits : List Nat) : Nat := digits.foldl (fun n d => n * 10 + d) 0

/-- The sign at the front: whether it is a minus, and the rest. -/
def splitSign : List Char → Bool × List Char
  | '+' :: cs => (false, cs)
  | '-' :: cs => (true, cs)
  | cs => (false, cs)

/-- Reads a whole number. -/
def readInteger (cs : List Char) : Except IntegerFlaw Int :=
  let (negative, cs) := splitSign (cs.dropWhile isNumberBlank)
  match groupedDigits? true cs with
  | none => .error .notNumber
  | some (digits, rest) =>
    if maxIntegerDigits < digits.length then .error (.tooLong digits.length)
    else if !rest.all isNumberBlank then .error .notNumber
    else .ok (if negative then -(ofDigits digits : Int) else ofDigits digits)

end Lintel.Number
