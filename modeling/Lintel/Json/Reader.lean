import Lintel.Json.Value
import Lintel.Number.Digits

/-!
# Reading JSON

`Json.read` reads one value at the front of a text and gives the rest; `Json.parse` reads a whole text
that holds one value between blanks. The reader also takes the numbers `NaN`, `Infinity` and
`-Infinity`, reads whole numbers exactly, and keeps the last of several members with one name. A
fault carries the text that was left where it arose, which gives its place in the whole text.
-/

namespace Lintel.Json

open Number (Binary64)

/-- What is wrong with a text that should be JSON. -/
inductive Malformed where
  | value
  | name
  | colon
  | comma
  | openText
  | control
  | escape
  | codePoint
  | extra
  | byteOrderMark
  deriving DecidableEq, Repr

/-- Why a text cannot be read, with the text from the place of the fault on. -/
inductive Stuck where
  | malformed (what : Malformed) (rest : List Char)
  | longInteger (digits : Nat)

/-- The greatest number of digits that a whole number may have. -/
def maxDigits : Nat := 4300

/-- The value of a hexadecimal digit. -/
def hexValue? (c : Char) : Option Nat :=
  if '0' ≤ c ∧ c ≤ '9' then some (c.toNat - 48)
  else if 'a' ≤ c ∧ c ≤ 'f' then some (c.toNat - 87)
  else if 'A' ≤ c ∧ c ≤ 'F' then some (c.toNat - 55)
  else none

/-- The number of four hexadecimal digits at the front, if one more character follows. -/
def codeUnit? : List Char → Option (Nat × List Char)
  | a :: b :: c :: d :: next :: rest => do
    let a ← hexValue? a
    let b ← hexValue? b
    let c ← hexValue? c
    let d ← hexValue? d
    some (((a * 16 + b) * 16 + c) * 16 + d, next :: rest)
  | _ => none

/-- The unit is the first of a pair that stands for one character. -/
def isHigh (unit : Nat) : Bool := 0xd800 ≤ unit && unit < 0xdc00

/-- The unit is the second of such a pair. -/
def isLow (unit : Nat) : Bool := 0xdc00 ≤ unit && unit < 0xe000

/-- The character of an escaped unit, with its second half if one follows. -/
def escapedChar (unit : Nat) (rest : List Char) : Except Stuck (Char × List Char) :=
  match rest with
  | '\\' :: 'u' :: more =>
    if isHigh unit && 4 < more.length then
      match codeUnit? more with
      | none => .error (.malformed .codePoint ('u' :: more))
      | some (second, after) =>
        if isLow second then
          .ok (Char.ofNat (0x10000 + (unit - 0xd800) * 1024 + (second - 0xdc00)), after)
        else .ok ('\uFFFD', rest)
    else .ok (if isHigh unit || isLow unit then '\uFFFD' else Char.ofNat unit, rest)
  | _ => .ok (if isHigh unit || isLow unit then '\uFFFD' else Char.ofNat unit, rest)

/-- The character of a short escape. -/
def shortEscape? : Char → Option Char
  | '"' => some '"'
  | '\\' => some '\\'
  | '/' => some '/'
  | 'b' => some (Char.ofNat 8)
  | 'f' => some (Char.ofNat 12)
  | 'n' => some '\n'
  | 'r' => some '\r'
  | 't' => some '\t'
  | _ => none

/-- Reads a text up to its closing quote; `opening` is the text from the opening quote on. -/
def readText (opening : List Char) : Nat → List Char → List Char → Except Stuck (String × List Char)
  | 0, _, _ => .error (.malformed .openText opening)
  | fuel + 1, done, cs =>
    match cs with
    | [] => .error (.malformed .openText opening)
    | '"' :: rest => .ok (String.ofList done.reverse, rest)
    | '\\' :: [] => .error (.malformed .openText opening)
    | '\\' :: 'u' :: rest =>
      match codeUnit? rest with
      | none => .error (.malformed .codePoint ('u' :: rest))
      | some (unit, rest) => do
        let (c, rest) ← escapedChar unit rest
        readText opening fuel (c :: done) rest
    | '\\' :: e :: rest =>
      match shortEscape? e with
      | none => .error (.malformed .escape cs)
      | some c => readText opening fuel (c :: done) rest
    | c :: rest =>
      if c.toNat < 32 then .error (.malformed .control cs)
      else readText opening fuel (c :: done) rest

/-- The text without the blanks at its front; only four characters are blank here. -/
def skipBlanks (cs : List Char) : List Char :=
  cs.dropWhile fun c => c == ' ' || c == '\t' || c == '\n' || c == '\r'

/-- The value of a row of digits. -/
def digitsValue (cs : List Char) : Nat := cs.foldl (fun n c => n * 10 + (c.toNat - 48)) 0

/-- The digits at the front, and the rest. -/
def spanDigits (cs : List Char) : List Char × List Char :=
  (cs.takeWhile Char.isDigit, cs.dropWhile Char.isDigit)

/-- The digits after a point at the front, if there are any. -/
def fraction (cs : List Char) : List Char × List Char :=
  match cs with
  | '.' :: rest => if (spanDigits rest).1.isEmpty then ([], cs) else spanDigits rest
  | _ => ([], cs)

/-- The exponent at the front, if there is one. -/
def exponent? (cs : List Char) : Option (Int × List Char) :=
  match cs with
  | e :: rest =>
    if e == 'e' || e == 'E' then
      let (negative, digits) := match rest with
        | '+' :: digits => (false, digits)
        | '-' :: digits => (true, digits)
        | _ => (false, rest)
      let (places, after) := spanDigits digits
      if places.isEmpty then none
      else
        let size : Int := digitsValue places
        some (if negative then -size else size, after)
    else none
  | [] => none

/-- Reads the number at the front of `cs`; `start` is the text from its sign on. -/
def readNumber (start : List Char) (negative : Bool) (cs : List Char) :
    Except Stuck (Json × List Char) :=
  let (whole, rest) := match cs with
    | '0' :: rest => (['0'], rest)
    | _ => spanDigits cs
  if whole.isEmpty then .error (.malformed .value start)
  else
    let (places, afterPoint) := fraction rest
    match exponent? afterPoint, places with
    | none, [] =>
      if maxDigits < whole.length then .error (.longInteger whole.length)
      else
        let size : Int := digitsValue whole
        .ok (.int (if negative then -size else size), afterPoint)
    | found, _ =>
      let (exponent, after) := found.getD (0, afterPoint)
      let value := Binary64.ofDecimal negative (digitsValue (whole ++ places))
        (exponent - places.length)
      .ok (.float value, after)

/-- The rest after `word`, if the text starts with it. -/
def after? : List Char → List Char → Option (List Char)
  | [], cs => some cs
  | _ :: _, [] => none
  | w :: word, c :: cs => if w = c then after? word cs else none

/-- The words that stand for a value. -/
def words : List (String × Json) :=
  [("null", .null), ("true", .bool true), ("false", .bool false), ("NaN", .float .nan),
    ("Infinity", .float (.infinite false)), ("-Infinity", .float (.infinite true))]

/-- The value of the word at the front, and the rest. -/
def readWord? (cs : List Char) : Option (Json × List Char) :=
  words.findSome? fun (word, value) => (after? word.toList cs).map fun rest => (value, rest)

/-- Reads a value that is neither a list nor an object. -/
def readPlain (cs : List Char) : Except Stuck (Json × List Char) :=
  match readWord? cs with
  | some found => .ok found
  | none =>
    match cs with
    | '"' :: rest => (readText cs (rest.length + 1) [] rest).map fun (s, rest) => (.str s, rest)
    | '-' :: rest => readNumber cs true rest
    | _ => readNumber cs false cs

mutual

/-- Reads the value at the front. -/
def readValue : Nat → List Char → Except Stuck (Json × List Char)
  | 0, cs => .error (.malformed .value cs)
  | fuel + 1, cs =>
    match cs with
    | '[' :: rest =>
      match skipBlanks rest with
      | ']' :: rest => .ok (.arr [], rest)
      | rest => readItems fuel [] rest
    | '\x7b' :: rest =>
      match skipBlanks rest with
      | '\x7d' :: rest => .ok (.obj [], rest)
      | rest => readMembers fuel [] rest
    | _ => readPlain cs

/-- Reads the items of a list, from one item to the closing bracket. -/
def readItems : Nat → List Json → List Char → Except Stuck (Json × List Char)
  | 0, _, cs => .error (.malformed .value cs)
  | fuel + 1, done, cs => do
    let (item, rest) ← readValue fuel cs
    match skipBlanks rest with
    | ']' :: rest => .ok (.arr (item :: done).reverse, rest)
    | ',' :: rest => readItems fuel (item :: done) (skipBlanks rest)
    | rest => .error (.malformed .comma rest)

/-- Reads the members of an object, from one name to the closing brace. -/
def readMembers : Nat → List (String × Json) → List Char → Except Stuck (Json × List Char)
  | 0, _, cs => .error (.malformed .name cs)
  | fuel + 1, done, cs =>
    match cs with
    | '"' :: rest => do
      let (name, rest) ← readText cs (rest.length + 1) [] rest
      match skipBlanks rest with
      | ':' :: rest => do
        let (value, rest) ← readValue fuel (skipBlanks rest)
        let done := put name value done
        match skipBlanks rest with
        | '\x7d' :: rest => .ok (.obj done, rest)
        | ',' :: rest => readMembers fuel done (skipBlanks rest)
        | rest => .error (.malformed .comma rest)
      | rest => .error (.malformed .colon rest)
    | _ => .error (.malformed .name cs)

end

/-- Reads the value at the front of a text. -/
def read (cs : List Char) : Except Stuck (Json × List Char) := readValue (2 * cs.length + 2) cs

/-- Where a text is not JSON: the fault and its place, counted in characters from zero, with the line
and the column, counted from one. -/
structure Misplaced where
  what : Malformed
  offset : Nat
  line : Nat
  column : Nat
  deriving DecidableEq, Repr

/-- Why a text is not a JSON value. -/
inductive Unreadable where
  | misplaced (fault : Misplaced)
  | longInteger (digits : Nat)
  deriving DecidableEq, Repr

/-- The line and the column after the characters `before`. -/
def lineColumn (before : List Char) : Nat × Nat :=
  (before.count '\n' + 1, (before.reverse.takeWhile (· != '\n')).length + 1)

/-- The place of a fault in the whole text. -/
def Stuck.locate (text : List Char) : Stuck → Unreadable
  | .longInteger digits => .longInteger digits
  | .malformed what rest =>
    let offset := text.length - rest.length
    let (line, column) := lineColumn (text.take offset)
    .misplaced ⟨what, offset, line, column⟩

/-- Reads the value at the very front of a text, whatever follows. -/
def parseFront (text : List Char) : Except Unreadable Json :=
  match read text with
  | .ok (value, _) => .ok value
  | .error stuck => .error (stuck.locate text)

/-- Reads a text that holds one value between blanks. -/
def parse (text : List Char) : Except Unreadable Json :=
  if text.head? == some '\uFEFF' then .error (Stuck.locate text (.malformed .byteOrderMark text))
  else
    match read (skipBlanks text) with
    | .error stuck => .error (stuck.locate text)
    | .ok (value, rest) =>
      match skipBlanks rest with
      | [] => .ok value
      | rest => .error (Stuck.locate text (.malformed .extra rest))

/-- What the message says of a fault. -/
def Malformed.phrase : Malformed → String
  | .value => "Expecting value"
  | .name => "Expecting property name enclosed in double quotes"
  | .colon => "Expecting ':' delimiter"
  | .comma => "Expecting ',' delimiter"
  | .openText => "Unterminated string starting at"
  | .control => "Invalid control character at"
  | .escape => "Invalid \\escape"
  | .codePoint => "Invalid \\uXXXX escape"
  | .extra => "Extra data"
  | .byteOrderMark => "Unexpected UTF-8 BOM (decode using utf-8-sig)"

/-- The message of a fault with its place. -/
def Misplaced.message (fault : Misplaced) : String :=
  let line := fault.line
  let column := fault.column
  let offset := fault.offset
  fault.what.phrase ++ s!": line {line} column {column} (char {offset})"

/-- The message for a whole number that is too long to read. -/
def longIntegerMessage (digits : Nat) : String :=
  s!"Exceeds the limit ({maxDigits} digits) for integer string conversion: value has {digits} "
    ++ "digits; use sys.set_int_max_str_digits() to increase the limit"

end Lintel.Json
