/-!
# Binary numbers of 64 bits

A number is a sign, a mantissa below 2^53 and a power of two between 2^(-1074) and 2^971; an infinity;
or no number at all. `ofRatio` rounds a quotient of whole numbers to the nearest such number, a tie to
the even mantissa. Sum, product and quotient are the rounded exact results, so all of them come down to
`ofRatio`.
-/

namespace Lintel.Number

/-- A binary number of 64 bits: `mantissa * 2 ^ exponent` with its sign, an infinity, or `nan`. -/
inductive Binary64 where
  | nan
  | infinite (negative : Bool)
  | finite (negative : Bool) (mantissa : Nat) (exponent : Int)
  deriving DecidableEq, Repr, Inhabited

namespace Binary64

/-- Zero with a sign. -/
def zero (negative : Bool) : Binary64 := .finite negative 0 0

/-- The power of two with a whole exponent, as a quotient. -/
def powerRatio (exponent : Int) : Nat × Nat :=
  if 0 ≤ exponent then (Nat.pow 2 exponent.toNat, 1) else (1, Nat.pow 2 (-exponent).toNat)

/-- The whole number nearest to `num / den`, a tie to the even one. -/
def roundDiv (num den : Nat) : Nat :=
  let q := num / den
  let r := num % den
  if den < 2 * r || (den == 2 * r && q % 2 == 1) then q + 1 else q

/-- The exponent of the grid on which `num / den` has a mantissa of 53 bits, bounded from below. -/
def gridExponent (num den : Nat) : Int :=
  let guess : Int := max (-1074) ((Nat.log2 num : Int) - Nat.log2 den - 53)
  let (up, down) := powerRatio guess
  if Nat.pow 2 53 ≤ num * down / (den * up) then guess + 1 else guess

/-- The number nearest to `num / den`, a tie to the even mantissa. -/
def ofRatio (negative : Bool) (num den : Nat) : Binary64 :=
  if num == 0 || den == 0 then zero negative
  else
    let exponent := gridExponent num den
    let (up, down) := powerRatio exponent
    let mantissa := roundDiv (num * down) (den * up)
    if mantissa == 0 then zero negative
    else
      let (mantissa, exponent) :=
        if mantissa == Nat.pow 2 53 then (Nat.pow 2 52, exponent + 1) else (mantissa, exponent)
      if 971 < exponent then .infinite negative else .finite negative mantissa exponent

/-- The number nearest to a whole number. -/
def ofInt (n : Int) : Binary64 := ofRatio (n < 0) n.natAbs 1

/-- The number nearest to `digits * 10 ^ exponent`; far exponents are settled without the power. -/
def ofDecimal (negative : Bool) (digits : Nat) (exponent : Int) : Binary64 :=
  let size : Int := (Nat.log2 digits : Int) / 3 + 1
  if digits == 0 then zero negative
  else if 400 < exponent then .infinite negative
  else if exponent + size < -400 then zero negative
  else if 0 ≤ exponent then ofRatio negative (digits * Nat.pow 10 exponent.toNat) 1
  else ofRatio negative digits (Nat.pow 10 (-exponent).toNat)

/-- The number is zero, of either sign. -/
def isZero : Binary64 → Bool
  | .finite _ 0 _ => true
  | _ => false

/-- The size of a finite number as a quotient. -/
def sizeRatio (mantissa : Nat) (exponent : Int) : Nat × Nat :=
  let (up, down) := powerRatio exponent
  (mantissa * up, down)

/-- A signed size: the mantissa with its sign. -/
def signed (negative : Bool) (mantissa : Nat) : Int :=
  if negative then -(mantissa : Int) else mantissa

/-- The number nearest to `mantissa * 2 ^ exponent`. -/
def ofScaled (mantissa : Int) (exponent : Int) : Binary64 :=
  let (num, den) := sizeRatio mantissa.natAbs exponent
  ofRatio (mantissa < 0) num den

/-- Two mantissas brought to the smaller of two exponents. -/
def aligned (n : Int) (e : Int) (m : Int) (f : Int) : Int × Int × Int :=
  let low := min e f
  (n * Nat.pow 2 (e - low).toNat, m * Nat.pow 2 (f - low).toNat, low)

/-- The rounded sum. -/
def add : Binary64 → Binary64 → Binary64
  | .nan, _ => .nan
  | _, .nan => .nan
  | .infinite a, .infinite b => if a == b then .infinite a else .nan
  | .infinite a, _ => .infinite a
  | _, .infinite b => .infinite b
  | .finite a m e, .finite b n f =>
    let (x, y, low) := aligned (signed a m) e (signed b n) f
    if x + y == 0 then zero (a && b) else ofScaled (x + y) low

/-- The number with the other sign. -/
def neg : Binary64 → Binary64
  | .nan => .nan
  | .infinite a => .infinite (!a)
  | .finite a m e => .finite (!a) m e

/-- The rounded difference. -/
def sub (a b : Binary64) : Binary64 := add a (neg b)

/-- The rounded product. -/
def mul : Binary64 → Binary64 → Binary64
  | .nan, _ => .nan
  | _, .nan => .nan
  | .infinite a, .infinite b => .infinite (a != b)
  | .infinite a, .finite b m _ => if m == 0 then .nan else .infinite (a != b)
  | .finite a m _, .infinite b => if m == 0 then .nan else .infinite (a != b)
  | .finite a m e, .finite b n f =>
    if m == 0 || n == 0 then zero (a != b)
    else
      let (num, den) := sizeRatio (m * n) (e + f)
      ofRatio (a != b) num den

/-- The order of two numbers, if both are numbers. -/
def compare? : Binary64 → Binary64 → Option Ordering
  | .nan, _ => none
  | _, .nan => none
  | .infinite a, .infinite b => some (if a == b then .eq else if a then .lt else .gt)
  | .infinite a, _ => some (if a then .lt else .gt)
  | _, .infinite b => some (if b then .gt else .lt)
  | .finite a m e, .finite b n f =>
    let (x, y, _) := aligned (signed a m) e (signed b n) f
    some (compare x y)

/-- The first number is smaller. -/
def lt (a b : Binary64) : Bool := compare? a b == some .lt

instance : LT Binary64 := ⟨fun a b => lt a b = true⟩

instance (a b : Binary64) : Decidable (a < b) := inferInstanceAs (Decidable (lt a b = true))

instance : Add Binary64 := ⟨add⟩

instance : Mul Binary64 := ⟨mul⟩

/-- The first number is smaller or equal. -/
def le (a b : Binary64) : Bool := compare? a b == some .lt || compare? a b == some .eq

/-- The numbers are equal; zeros of either sign are, and `nan` equals nothing. -/
def same (a b : Binary64) : Bool := compare? a b == some .eq

/-- The smaller number, the first one unless the second is less. -/
def least (a b : Binary64) : Binary64 := if lt b a then b else a

/-- The greatest whole number that is not above the number; none for an infinity and `nan`. -/
def floor? : Binary64 → Option Int
  | .finite a m e =>
    let (num, den) := sizeRatio m e
    some ((signed a num).fdiv den)
  | _ => none

/-- The whole number that is left when the places after the point are dropped. -/
def truncate? : Binary64 → Option Int
  | .finite a m e =>
    let (num, den) := sizeRatio m e
    some (signed a (num / den))
  | _ => none

end Binary64

end Lintel.Number
