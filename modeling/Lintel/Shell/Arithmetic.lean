import Lintel.Shell.Printf
import Lintel.Shell.Token

/-!
# Arithmetic

Sums in shell scripts are read by precedence and valued at once (`arithmetic?`).
-/

namespace Lintel.Shell.Arithmetic

/-- A symbol of a sum. -/
inductive Symbol where
  | number (value : Int)
  | op (text : String)
  deriving DecidableEq, Repr

/-- The operators, longer ones first. -/
def symbols : List String :=
  ["&&", "||", "==", "!=", "<=", ">=", "<<", ">>", "+", "-", "*", "/", "%", "<", ">", "&", "|", "^",
    "!", "~", "(", ")"]

/-- The symbols of a text. -/
def symbolsFrom (valueOf : String → Int) : Nat → List Char → Option (List Symbol)
  | 0, _ => none
  | fuel + 1, cs =>
    match cs with
    | [] => some []
    | c :: rest =>
      if isSpace c || c == '\n' || c == '$' then symbolsFrom valueOf fuel rest
      else if c.isDigit then
        let digits := cs.takeWhile Char.isAlphanum
        let (value, good) := numberOf (String.ofList digits)
        if good then
          (symbolsFrom valueOf fuel (cs.drop digits.length)).map (.number value :: ·)
        else none
      else if isNameChar c then
        let name := cs.takeWhile isNameChar
        (symbolsFrom valueOf fuel (cs.drop name.length)).map
          (.number (valueOf (String.ofList name)) :: ·)
      else
        match firstOf symbols cs with
        | some (op, rest) => (symbolsFrom valueOf fuel rest).map (.op op :: ·)
        | none => none

/-- The operators with two sides, loosest first. -/
def levels : List (List String) :=
  [["||"], ["&&"], ["|"], ["^"], ["&"], ["==", "!="], ["<", "<=", ">", ">="], ["<<", ">>"],
    ["+", "-"], ["*", "/", "%"]]

/-- One for what holds, and zero for what does not. -/
def truth (holds : Bool) : Int := if holds then 1 else 0

/-- A bitwise operation on numbers in 64 bits. -/
def bitwise (f : Nat → Nat → Nat) (a b : Int) : Int :=
  Int.bmod (f (unsigned a) (unsigned b)) words

/-- The value of an operation; none if one divides by zero. -/
def apply (op : String) (a b : Int) : Option Int :=
  match op with
  | "||" => some (truth (a != 0 || b != 0))
  | "&&" => some (truth (a != 0 && b != 0))
  | "|" => some (bitwise Nat.lor a b)
  | "^" => some (bitwise Nat.xor a b)
  | "&" => some (bitwise Nat.land a b)
  | "==" => some (truth (a == b))
  | "!=" => some (truth (a != b))
  | "<" => some (truth (a < b))
  | "<=" => some (truth (a ≤ b))
  | ">" => some (truth (b < a))
  | ">=" => some (truth (b ≤ a))
  | "<<" => some (a * Nat.pow 2 (b.toNat % 64))
  | ">>" => some (a / Nat.pow 2 (b.toNat % 64))
  | "+" => some (a + b)
  | "-" => some (a - b)
  | "*" => some (a * b)
  | "/" => if b == 0 then none else some (a.tdiv b)
  | _ => if b == 0 then none else some (a.tmod b)

mutual

/-- Values operations of some levels and tighter ones. -/
def valueAt : Nat → List (List String) → List Symbol → Option (Int × List Symbol)
  | 0, _, _ => none
  | fuel + 1, level, input =>
    match level with
    | [] => unary fuel input
    | ops :: tighter => do
      let (value, rest) ← valueAt fuel tighter input
      valueAfter fuel ops tighter value rest

/-- Values the operations of one level that follow a value. -/
def valueAfter : Nat → List String → List (List String) → Int → List Symbol →
    Option (Int × List Symbol)
  | 0, _, _, _, _ => none
  | fuel + 1, ops, tighter, value, input =>
    match input with
    | .op op :: rest =>
      if ops.contains op then do
        let (other, rest) ← valueAt fuel tighter rest
        let result ← apply op value other
        valueAfter fuel ops tighter result rest
      else some (value, input)
    | _ => some (value, input)

/-- Values a number, a sign with what follows it, or brackets. -/
def unary : Nat → List Symbol → Option (Int × List Symbol)
  | 0, _ => none
  | fuel + 1, input =>
    match input with
    | .number value :: rest => some (value, rest)
    | .op "-" :: rest => (unary fuel rest).map fun (value, rest) => (-value, rest)
    | .op "+" :: rest => unary fuel rest
    | .op "!" :: rest => (unary fuel rest).map fun (value, rest) => (truth (value == 0), rest)
    | .op "~" :: rest => (unary fuel rest).map fun (value, rest) => (-value - 1, rest)
    | .op "(" :: rest => do
      match ← valueAt fuel levels rest with
      | (value, .op ")" :: rest) => some (value, rest)
      | _ => none
    | _ => none

end

/-- The value of a sum in which names have values. -/
def arithmetic? (valueOf : String → Int) (text : String) : Option Int := do
  let symbols ← symbolsFrom valueOf (text.length + 1) text.toList
  match ← valueAt (20 * symbols.length + 20) levels symbols with
  | (value, []) => some value
  | _ => none

end Lintel.Shell.Arithmetic
