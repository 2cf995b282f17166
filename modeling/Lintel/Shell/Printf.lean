import Lintel.Number.Integer
import Lintel.Shell.Flow

/-!
# Formatted printing

Texts with escapes are turned to bytes (`unescape`). A format is bytes and directives (`Format`); it is
used again and again until no arguments are left (`Format.print`).
-/

namespace Lintel.Shell

open Text (Bytes)

/-! ## Escapes -/

/-- The value of an octal digit. -/
def octal? (c : Char) : Option Nat := if '0' ≤ c && c ≤ '7' then some (c.toNat - '0'.toNat) else none

/-- The value of a decimal digit. -/
def decimal? (c : Char) : Option Nat := if c.isDigit then some (c.toNat - '0'.toNat) else none

/-- The value of a hexadecimal digit. -/
def hex? (c : Char) : Option Nat :=
  if c.isDigit then decimal? c
  else if 'a' ≤ c && c ≤ 'f' then some (c.toNat - 'a'.toNat + 10)
  else if 'A' ≤ c && c ≤ 'F' then some (c.toNat - 'A'.toNat + 10)
  else none

/-- The number that at most so many digits make, and the rest. -/
def digitsIn (base : Nat) (digit? : Char → Option Nat) : Nat → Nat → List Char → Nat × List Char
  | 0, value, cs => (value, cs)
  | _, value, [] => (value, [])
  | count + 1, value, c :: cs =>
    match digit? c with
    | some digit => digitsIn base digit? count (value * base + digit) cs
    | none => (value, c :: cs)

/-- The byte for a letter after a backslash. -/
def letterEscape? (wide : Bool) (c : Char) : Option UInt8 :=
  match c with
  | '\\' => some 92
  | 'a' => some 7
  | 'b' => some 8
  | 'f' => some 12
  | 'n' => some 10
  | 'r' => some 13
  | 't' => some 9
  | 'v' => some 11
  | 'e' => some 27
  | '"' => if wide then some 34 else none
  | _ => none

/-- The byte for what follows a backslash, and the rest; there are more escapes if `wide`. -/
def escape? (wide : Bool) (cs : List Char) : Option (UInt8 × List Char) :=
  match cs with
  | [] => none
  | c :: rest =>
    if (octal? c).isSome then
      let (value, rest) := digitsIn 8 octal? 3 0 cs
      some (UInt8.ofNat value, rest)
    else if wide && c == 'x' && (rest.head?.bind hex?).isSome then
      let (value, rest) := digitsIn 16 hex? 2 0 rest
      some (UInt8.ofNat value, rest)
    else (letterEscape? wide c).map fun byte => (byte, rest)

/-- The bytes of a text with escapes, and whether it asks for the end of all output. -/
def unescapeFrom (wide : Bool) : Nat → List Char → Bytes × Bool
  | 0, _ => ([], false)
  | fuel + 1, cs =>
    let goOn := fun (bytes : Bytes) (rest : List Char) =>
      let (more, ends) := unescapeFrom wide fuel rest
      (bytes ++ more, ends)
    match cs with
    | [] => ([], false)
    | '\\' :: 'c' :: _ => ([], true)
    | '\\' :: rest =>
      let rest := match rest with
        | '0' :: c :: more => if (octal? c).isSome then c :: more else rest
        | _ => rest
      match escape? wide rest with
      | some (byte, rest) => goOn [byte] rest
      | none => goOn [92] rest
    | c :: rest => goOn (Text.encodeChar c) rest

/-- The bytes of a text with escapes, and whether it asks for the end of all output. -/
def unescape (wide : Bool) (text : String) : Bytes × Bool :=
  unescapeFrom wide (text.length + 1) text.toList

/-! ## Formats -/

/-- How many numbers there are of 64 bits. -/
def words : Nat := Nat.pow 2 64

/-- A number read without a sign, in 64 bits. -/
def unsigned (n : Int) : Nat := (n % words).toNat

/-- How an argument is written. -/
structure Directive where
  flags : List Char := []
  width : Nat := 0
  precision : Option Nat := none
  kind : Char
  deriving DecidableEq, Repr

/-- A part of a format. -/
inductive FormatPart where
  | bytes (bytes : Bytes)
  | directive (directive : Directive)
  deriving DecidableEq, Repr

/-- The parts of a format. -/
abbrev Format := List FormatPart

/-- The directive after a percent sign, and the rest. -/
def directive? (cs : List Char) : Option (Directive × List Char) :=
  let isFlag := fun c => "-+ #0".toList.contains c
  let flags := cs.takeWhile isFlag
  let (width, rest) := digitsIn 10 decimal? 9 0 (cs.dropWhile isFlag)
  let (precision, rest) := match rest with
    | '.' :: rest =>
      let (value, rest) := digitsIn 10 decimal? 9 0 rest
      (some value, rest)
    | rest => (none, rest)
  match rest with
  | [] => none
  | kind :: rest => some ({ flags, width, precision, kind }, rest)

/-- Reads a format. -/
def Format.readFrom (wide : Bool) : Nat → List Char → Format
  | 0, _ => []
  | fuel + 1, cs =>
    match cs with
    | [] => []
    | '%' :: '%' :: rest => .bytes [37] :: readFrom wide fuel rest
    | '%' :: rest =>
      match directive? rest with
      | some (directive, rest) => .directive directive :: readFrom wide fuel rest
      | none => [.bytes [37]]
    | '\\' :: rest =>
      match escape? wide rest with
      | some (byte, rest) => .bytes [byte] :: readFrom wide fuel rest
      | none => .bytes [92] :: readFrom wide fuel rest
    | c :: rest => .bytes (Text.encodeChar c) :: readFrom wide fuel rest

/-- Reads a format. -/
def Format.read (wide : Bool) (text : String) : Format :=
  readFrom wide (text.length + 1) text.toList

/-- The value of a sign and digits, with what is left over. -/
def signedDigits (cs : List Char) : Int × List Char :=
  let (negative, cs) := match cs with
    | '-' :: rest => (true, rest)
    | '+' :: rest => (false, rest)
    | cs => (false, cs)
  let (size, rest) := match cs with
    | '0' :: 'x' :: rest => digitsIn 16 hex? rest.length 0 rest
    | '0' :: rest => digitsIn 8 octal? rest.length 0 rest
    | cs => digitsIn 10 decimal? cs.length 0 cs
  (if negative then -(size : Int) else size, rest)

/-- The number that an argument stands for, and whether it is one. -/
def numberOf (argument : String) : Int × Bool :=
  match argument.toList with
  | [] => (0, true)
  | '\'' :: c :: _ => (c.toNat, true)
  | '"' :: c :: _ => (c.toNat, true)
  | cs =>
    let (value, rest) := signedDigits cs
    let hasDigit := cs.any Char.isDigit && !(cs.head?.any Char.isAlpha)
    (value, rest.isEmpty && hasDigit)

/-- The text starts as a number does. -/
def startsNumber (argument : String) : Bool :=
  ((argument.toList.dropWhile fun c => c == '-' || c == '+').head?).any Char.isDigit

namespace Directive

/-- The kinds of directives. -/
def kinds : List Char := "diouxXcsbf".toList

/-- The text is brought to the width of the directive. -/
def pad (directive : Directive) (bytes : Bytes) : Bytes :=
  let fill := List.replicate (directive.width - bytes.length) (32 : UInt8)
  if directive.flags.contains '-' then bytes ++ fill else fill ++ bytes

/-- A number with its sign, brought to the width of the directive. -/
def padNumber (directive : Directive) (sign digits : String) : Bytes :=
  let digits := match directive.precision with
    | some least => "".pushn '0' (least - digits.length) ++ digits
    | none => digits
  let zeros := directive.flags.contains '0' && !directive.flags.contains '-' &&
    directive.precision.isNone
  let size := sign.length + digits.length
  if zeros then Text.encode (sign ++ "".pushn '0' (directive.width - size) ++ digits)
  else directive.pad (Text.encode (sign ++ digits))

/-- The sign of a number that is not negative. -/
def plusSign (directive : Directive) : String :=
  if directive.flags.contains '+' then "+"
  else if directive.flags.contains ' ' then " "
  else ""

/-- Digits in a base. -/
def inBase (base n : Nat) : String := String.ofList (Nat.toDigits base n)

/-- The fraction digits that a number has if no precision is given. -/
def usualPlaces : Nat := 6

/-- A number with fraction digits. -/
def fixed (directive : Directive) (argument : String) : Bytes :=
  let (negative, body) := match argument.toList with
    | '-' :: rest => (true, rest)
    | rest => (false, rest)
  let whole := body.takeWhile Char.isDigit
  let part := ((body.drop whole.length).drop 1).takeWhile Char.isDigit
  let digits := (digitsIn 10 decimal? (whole ++ part).length 0 (whole ++ part)).1
  let places := directive.precision.getD usualPlaces
  let text := inBase 10 (Number.Binary64.roundDiv (digits * Nat.pow 10 places) (Nat.pow 10 part.length))
  let text := "".pushn '0' (places + 1 - text.length) ++ text
  let cut := text.length - places
  let fraction := String.ofList (text.toList.drop cut)
  let shown := String.ofList (text.toList.take cut) ++ (if places == 0 then "" else "." ++ fraction)
  let sign := if negative then "-" else directive.plusSign
  { directive with precision := none : Directive }.padNumber sign shown

/-- What a number is written as; none if the directive is not for numbers. -/
def number? (directive : Directive) (n : Int) : Option Bytes :=
  let alternate := directive.flags.contains '#'
  match directive.kind with
  | 'd' | 'i' =>
    let sign := if n < 0 then "-" else directive.plusSign
    some (directive.padNumber sign (inBase 10 n.natAbs))
  | 'u' => some (directive.padNumber "" (inBase 10 (unsigned n)))
  | 'o' => some (directive.padNumber (if alternate then "0" else "") (inBase 8 (unsigned n)))
  | 'x' => some (directive.padNumber (if alternate then "0x" else "") (inBase 16 (unsigned n)))
  | 'X' =>
    some (directive.padNumber (if alternate then "0X" else "") (inBase 16 (unsigned n)).toUpper)
  | _ => none

/-- What an argument is written as, whether it asks for the end of all output, and whether it suits the
directive. -/
def write (directive : Directive) (wide : Bool) (argument : String) : Bytes × Bool × Bool :=
  let cut := fun (bytes : Bytes) =>
    match directive.precision with
    | some most => bytes.take most
    | none => bytes
  match directive.kind with
  | 's' => (directive.pad (cut (Text.encode argument)), false, true)
  | 'c' => (directive.pad ((Text.encode argument).take 1), false, true)
  | 'b' =>
    let (bytes, ends) := unescape wide argument
    (directive.pad (cut bytes), ends, true)
  | 'f' => (directive.fixed argument, false, startsNumber argument || argument.isEmpty)
  | _ =>
    let (n, good) := numberOf argument
    ((directive.number? n).getD [], false, good)

end Directive

/-- What formatted printing gives: bytes, arguments that are no numbers, and the arguments left. -/
structure Printing where
  bytes : List Bytes := []
  bad : List String := []
  left : List String
  ended : Bool := false
  invalid : Option Char := none

/-- Writes one part of a format. -/
def Printing.step (wide : Bool) (printing : Printing) (part : FormatPart) : Printing :=
  if printing.ended then printing
  else
    match part with
    | .bytes bytes => { printing with bytes := bytes :: printing.bytes }
    | .directive directive =>
      let argument := printing.left.head?.getD ""
      if Directive.kinds.contains directive.kind then
        let (bytes, ended, good) := directive.write wide argument
        { bytes := bytes :: printing.bytes
          bad := if good then printing.bad else argument :: printing.bad
          left := printing.left.drop 1, ended }
      else { printing with ended := true, invalid := some directive.kind }

/-- The format takes arguments. -/
def Format.takes (format : Format) : Bool := format.any fun
  | .directive _ => true
  | _ => false

/-- Prints as long as arguments are left. -/
def Format.printFrom (wide : Bool) (format : Format) : Nat → Printing → Printing
  | 0, printing => printing
  | fuel + 1, printing =>
    let printing := format.foldl (Printing.step wide) printing
    if printing.ended || printing.left.isEmpty || !format.takes then printing
    else printFrom wide format fuel printing

/-- Prints arguments as a format says. -/
def Format.print (wide : Bool) (format : Format) (arguments : List String) : Printing :=
  format.printFrom wide (arguments.length + 1) { left := arguments }

end Lintel.Shell
