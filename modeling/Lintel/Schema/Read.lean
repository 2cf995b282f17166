import Lintel.Files.Path
import Lintel.Json.Access
import Lintel.Schema.Problem

/-!
# Reading values

Readers turn a JSON value into a value of a type or say what is wrong with it (`Checked`). They are
lenient: numbers and truth values may be written as text.
-/

namespace Lintel.Schema

open Number (Binary64)

/-- A value, or the problems that it has. -/
abbrev Checked (α : Type) := Except (List Problem) α

/-- Refuses a value for a cause. -/
def refuse {α : Type} (cause : Cause) (found : Json) : Checked α := .error [⟨[], cause, found⟩]

/-! ## Texts -/

/-- Reads a text. -/
def text : Json → Checked String
  | .str s => .ok s
  | other => refuse .notText other

/-- Reads a text of at least `least` characters. -/
def textOf (least : Nat) (value : Json) : Checked String := do
  let s ← text value
  if s.length < least then refuse (.shortText least) value else return s

/-- Reads a path. -/
def path : Json → Checked Files.Path
  | .str s => .ok (.ofString s)
  | other => refuse .notPath other

/-- Reads one of some choices, each with its word. -/
def choice {α : Type} (word : α → String) (choices : List α) (value : Json) : Checked α :=
  let found := match value with
    | .str s => choices.find? (word · == s)
    | _ => none
  match found with
  | some c => .ok c
  | none => refuse (.notChoice (choices.map word)) value

/-- Reads a value that may be null. -/
def optional {α : Type} (read : Json → Checked α) : Json → Checked (Option α)
  | .null => .ok none
  | value => (read value).map some

/-! ## Truth values -/

/-- The words for true. -/
def trueWords : List String := ["1", "on", "t", "true", "y", "yes"]

/-- The words for false. -/
def falseWords : List String := ["0", "off", "f", "false", "n", "no"]

/-- The truth value of a whole number. -/
def truthOfInt (value : Json) (n : Int) : Checked Bool :=
  if n == 0 then .ok false else if n == 1 then .ok true else refuse .unclearTruth value

/-- The whole number that a number is. -/
def whole? (x : Binary64) : Option Int := do
  let n ← x.floor?
  if x.same (.ofInt n) then some n else none

/-- Reads a truth value. -/
def truth : Json → Checked Bool
  | .bool b => .ok b
  | .int n => truthOfInt (.int n) n
  | .float x =>
    match whole? x with
    | some n => truthOfInt (.float x) n
    | none => refuse .notTruth (.float x)
  | .str s =>
    let word := String.ofList (s.toList.map Char.toLower)
    if trueWords.contains word then .ok true
    else if falseWords.contains word then .ok false
    else refuse .unclearTruth (.str s)
  | other => refuse .notTruth other

/-! ## Numbers -/

/-- Blanks around numbers: all blanks but the separators of information. -/
def isMargin (c : Char) : Bool := Text.isBlank c && !(0x1c ≤ c.toNat && c.toNat ≤ 0x1f)

/-- The text without blanks at its ends. -/
def withoutMargin (cs : List Char) : List Char :=
  ((cs.dropWhile isMargin).reverse.dropWhile isMargin).reverse

/-- The text holds two underscores in a row. -/
def doublesUnderscore : List Char → Bool
  | '_' :: '_' :: _ => true
  | _ :: cs => doublesUnderscore cs
  | [] => false

/-- The text without underscores, if they all stand alone and inside. -/
def withoutUnderscores (cs : List Char) : List Char :=
  if cs.head? == some '_' || cs.getLast? == some '_' || doublesUnderscore cs then cs
  else cs.filter (· != '_')

/-- The text from its first digit that counts on; `before` are the zeros passed over. -/
def pastZeros (before : List Char) : List Char → Option (List Char)
  | [] => some before
  | '0' :: cs => pastZeros ['0'] cs
  | '_' :: cs => pastZeros ['_'] cs
  | '.' :: cs => some (before ++ '.' :: cs)
  | c :: cs => if c.isDigit then some (c :: cs) else none

/-- The text of a whole number without zeros at its front. -/
def withoutZeros? : List Char → Option (List Char)
  | '0' :: cs => pastZeros ['0'] cs
  | c :: cs => if c.isDigit || c == '-' then some (c :: cs) else none
  | [] => none

/-- The text without a fraction of zeros. -/
def withoutFraction (cs : List Char) : List Char :=
  match cs.dropWhile (· != '.') with
  | '.' :: zeros => if zeros.all (· == '0') then cs.takeWhile (· != '.') else cs
  | _ => cs

/-- The text of a whole number in its simplest form. -/
def simplified? (cs : List Char) : Option (List Char) := do
  let cs ← match withoutMargin cs with
    | '+' :: '-' :: _ => none
    | '+' :: cs => some cs
    | cs => some cs
  return withoutUnderscores (withoutFraction (← withoutZeros? cs))

/-- The number that digits with a sign stand for. -/
def signedDigits? (cs : List Char) : Option Int :=
  let (negative, digits) := match cs with
    | '-' :: digits => (true, digits)
    | '+' :: digits => (false, digits)
    | digits => (false, digits)
  if digits.isEmpty || !digits.all Char.isDigit then none
  else
    let n : Int := Json.digitsValue digits
    some (if negative then -n else n)

/-- The whole number that a text stands for. -/
def wholeOfText (s : String) : Checked Int :=
  match simplified? s.toList with
  | none => refuse .unreadableWhole (.str s)
  | some cs =>
    if Json.maxDigits < (Text.encodeChars cs).length then refuse .longWhole (.str s)
    else
      match signedDigits? cs with
      | some n => .ok n
      | none => refuse .unreadableWhole (.str s)

/-- Reads a whole number. -/
def whole : Json → Checked Int
  | .bool b => .ok (if b then 1 else 0)
  | .int n => .ok n
  | .float x =>
    match x.floor?, whole? x with
    | _, some n => .ok n
    | some _, none => refuse .fraction (.float x)
    | none, none => refuse .notFinite (.float x)
  | .str s => wholeOfText s
  | other => refuse .notWhole other

/-- The words for numbers that are not finite. -/
def numberWords : List (String × Binary64) :=
  [("inf", .infinite false), ("infinity", .infinite false), ("nan", .nan)]

/-- The digits before and after a point, and what follows. -/
def decimal (cs : List Char) : (List Char × List Char) × List Char :=
  let (before, rest) := Json.spanDigits cs
  match rest with
  | '.' :: rest =>
    let (after, rest) := Json.spanDigits rest
    ((before, after), rest)
  | rest => ((before, []), rest)

/-- The exponent at the end of a number. -/
def exponentOf? : List Char → Option Int
  | [] => some 0
  | c :: cs => if c == 'e' || c == 'E' then signedDigits? cs else none

/-- The number that a text without sign stands for. -/
def plainNumber? (negative : Bool) (cs : List Char) : Option Binary64 :=
  let word := String.ofList (cs.map Char.toLower)
  match numberWords.find? (·.1 == word) with
  | some (_, x) => some (if negative then x.neg else x)
  | none => do
    let ((before, after), rest) := decimal cs
    let exponent ← exponentOf? rest
    if before.isEmpty && after.isEmpty then none
    else
      some (.ofDecimal negative (Json.digitsValue (before ++ after)) (exponent - after.length))

/-- The number that a text stands for. -/
def number? : List Char → Option Binary64
  | '-' :: cs => plainNumber? true cs
  | '+' :: cs => plainNumber? false cs
  | cs => plainNumber? false cs

/-- Reads a number. -/
def number : Json → Checked Binary64
  | .bool b => .ok (.ofInt (if b then 1 else 0))
  | .int n =>
    match Binary64.ofInt n with
    | .infinite _ => refuse .notNumber (.int n)
    | x => .ok x
  | .float x => .ok x
  | .str s =>
    match number? (withoutUnderscores (withoutMargin s.toList)) with
    | some x => .ok x
    | none => refuse .unreadableNumber (.str s)
  | other => refuse .notNumber other

/-! ## Lists -/

/-- Reads the items of a list from the index `index` on; all their problems are told. -/
def items {α : Type} (read : Json → Checked α) (index : Nat) : List Json → Checked (List α)
  | [] => .ok []
  | value :: rest =>
    match read value, items read (index + 1) rest with
    | .ok a, .ok found => .ok (a :: found)
    | .ok _, .error problems => .error problems
    | .error problems, .ok _ => .error (problems.map (Problem.below (Number.intText index)))
    | .error problems, .error more =>
      .error (problems.map (Problem.below (Number.intText index)) ++ more)

/-- Reads a list. -/
def list {α : Type} (read : Json → Checked α) : Json → Checked (List α)
  | .arr values => items read 0 values
  | other => refuse .notList other

/-! ## Rules -/

/-- Refuses what breaks a rule. -/
def ruled {α : Type} (flaw? : α → Option String) (read : Json → Checked α) (value : Json) :
    Checked α := do
  let a ← read value
  match flaw? a with
  | some message => refuse (.rule message) value
  | none => return a

end Lintel.Schema
