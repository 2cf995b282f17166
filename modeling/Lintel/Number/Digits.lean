import Lintel.Number.Binary64

/-!
# Numbers in digits

`shortest` finds the fewest digits that read back as the same binary number and, of those, the
nearest; `rounded` gives a fixed count of digits. `shortText` and `briefText` lay digits out:
positional near one, with an exponent elsewhere.
-/

namespace Lintel.Number

/-- The decimal digits of a whole number. -/
def digitsOf (n : Nat) : List Char := Nat.toDigits 10 n

/-- The text of a whole number. -/
def intText (n : Int) : String :=
  String.ofList <| if n < 0 then '-' :: digitsOf n.natAbs else digitsOf n.natAbs

/-- The number `digits * 10 ^ exponent`. -/
structure Decimal where
  digits : Nat
  exponent : Int
  deriving DecidableEq, Repr

/-- The value as a quotient. -/
def Decimal.ratio (d : Decimal) : Nat × Nat :=
  if 0 ≤ d.exponent then (d.digits * Nat.pow 10 d.exponent.toNat, 1)
  else (d.digits, Nat.pow 10 (-d.exponent).toNat)

/-- The least `p` with `num / den < 10 ^ p`. -/
def pointOf (num den : Nat) : Int :=
  let guess : Int := ((digitsOf num).length : Int) - (digitsOf den).length
  let isBelow :=
    if 0 ≤ guess then num < den * Nat.pow 10 guess.toNat
    else num * Nat.pow 10 (-guess).toNat < den
  if isBelow then guess else guess + 1

/-- The quotient `num / den` in units of `10 ^ exponent`, again as a quotient. -/
def inUnits (num den : Nat) (exponent : Int) : Nat × Nat :=
  if 0 ≤ exponent then (num, den * Nat.pow 10 exponent.toNat)
  else (num * Nat.pow 10 (-exponent).toNat, den)

/-- The nearest number with `count` digits, a tie to the even digit. -/
def rounded (num den count : Nat) : Decimal :=
  let exponent := pointOf num den - count
  let (up, down) := inUnits num den exponent
  ⟨Binary64.roundDiv up down, exponent⟩

/-- Whether the decimal rounds to `mantissa * 2 ^ exponent`: it lies between the midpoints to the
neighbours, which belong to the number if the mantissa is even. -/
def readsBack (mantissa : Nat) (exponent : Int) (d : Decimal) : Bool :=
  let (num, den) := d.ratio
  -- in quarters of the unit in the last place
  let (up, down) := Binary64.powerRatio (exponent - 2)
  let place := num * down
  let unit := den * up
  let gap := if mantissa == Nat.pow 2 52 && -1074 < exponent then 1 else 2
  let low := (4 * mantissa - gap) * unit
  let high := (4 * mantissa + 2) * unit
  if mantissa % 2 == 0 then low ≤ place && place ≤ high else low < place && place < high

/-- The fewest digits, from `count` on, that read back, and of those the nearest. -/
def shortestFrom (mantissa : Nat) (exponent : Int) (num den : Nat) (point : Int) :
    Nat → Nat → Decimal
  | 0, count => rounded num den count
  | fuel + 1, count =>
    let unit := point - count
    let (up, down) := inUnits num den unit
    let nearest := Binary64.roundDiv up down
    let other := if nearest == up / down then nearest + 1 else up / down
    if readsBack mantissa exponent ⟨nearest, unit⟩ then ⟨nearest, unit⟩
    else if readsBack mantissa exponent ⟨other, unit⟩ then ⟨other, unit⟩
    else shortestFrom mantissa exponent num den point fuel (count + 1)

/-- The fewest digits that read back as `mantissa * 2 ^ exponent`. -/
def shortest (mantissa : Nat) (exponent : Int) : Decimal :=
  let (num, den) := Binary64.sizeRatio mantissa exponent
  shortestFrom mantissa exponent num den (pointOf num den) 17 1

/-- The digits without the zeros at their end. -/
def dropTrailingZeros (cs : List Char) : List Char := (cs.reverse.dropWhile (· == '0')).reverse

/-- The digits before and after the point of `0.cs * 10 ^ point`. -/
def positional (cs : List Char) (point : Int) : List Char × List Char :=
  if point ≤ 0 then (['0'], List.replicate (-point).toNat '0' ++ cs)
  else
    let n := point.toNat
    (cs.take n ++ List.replicate (n - cs.length) '0', cs.drop n)

/-- The text of `0.cs * 10 ^ point` with an exponent of at least two places. -/
def exponential (cs : List Char) (point : Int) : List Char :=
  let e := point - 1
  let places := digitsOf e.natAbs
  let places := if places.length < 2 then '0' :: places else places
  let body := match cs with
    | [] => ['0']
    | [c] => [c]
    | c :: cs => c :: '.' :: cs
  body ++ ['e', if e < 0 then '-' else '+'] ++ places

/-- How a number is laid out: the range of points that are written positionally, and whether a whole
number keeps a zero after the point. -/
structure Layout where
  least : Int
  greatest : Int
  keepsPoint : Bool

/-- The text of a decimal above zero. -/
def Layout.write (layout : Layout) (d : Decimal) : List Char :=
  let all := digitsOf d.digits
  let point := d.exponent + all.length
  let cs := dropTrailingZeros all
  if layout.least ≤ point && point ≤ layout.greatest then
    let (whole, places) := positional cs point
    if places.isEmpty then if layout.keepsPoint then whole ++ ['.', '0'] else whole
    else whole ++ '.' :: places
  else exponential cs point

/-- The text of a number whose digits above zero `digits` picks. -/
def Layout.writeNumber (layout : Layout) (digits : Nat → Int → Decimal) : Binary64 → String
  | .nan => "nan"
  | .infinite negative => if negative then "-inf" else "inf"
  | .finite negative mantissa exponent =>
    let size :=
      if mantissa == 0 then if layout.keepsPoint then ['0', '.', '0'] else ['0']
      else layout.write (digits mantissa exponent)
    String.ofList (if negative then '-' :: size else size)

/-- The shortest text that reads back: positional from 0.0001 to below 10^16, always with a point. -/
def shortText : Binary64 → String := Layout.writeNumber ⟨-3, 16, true⟩ shortest

/-- Six digits at most: positional from 0.0001 to below 10^6, whole numbers without a point. -/
def briefText : Binary64 → String :=
  Layout.writeNumber ⟨-3, 6, false⟩ fun mantissa exponent =>
    let (num, den) := Binary64.sizeRatio mantissa exponent
    rounded num den 6

end Lintel.Number
