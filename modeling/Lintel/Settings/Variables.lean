import Lintel.Text.Lines

/-!
# Files of variables

A file of variables has a binding per line: a name, an equal sign and a value, which may stand in quotes.
Comments and lines that are no bindings are passed over (`Variables.read`). A value may refer to other
variables (`Variables.expand`).
-/

namespace Lintel.Variables

/-- The variables by name; without an equal sign a name has no value. -/
abbrev Bindings := List (String × Option String)

/-- A blank that does not end a line. -/
def isGap (c : Char) : Bool := Text.isBlank c && c != '\n' && c != '\r'

/-- The character ends a line. -/
def isEnd (c : Char) : Bool := c == '\n' || c == '\r'

/-! ## Values -/

/-- The text up to the next quote, and the rest after it; a quote after a backslash belongs to the text
unless no other quote follows. -/
def untilQuote (quote : Char) : List Char → Option (List Char × List Char)
  | [] => none
  | '\\' :: c :: cs =>
    if c == quote then
      match untilQuote quote cs with
      | some (text, rest) => some ('\\' :: c :: text, rest)
      | none => some (['\\'], cs)
    else (untilQuote quote (c :: cs)).map fun (text, rest) => ('\\' :: text, rest)
  | c :: cs =>
    if c == quote then some ([], cs)
    else (untilQuote quote cs).map fun (text, rest) => (c :: text, rest)

/-- The characters that letters after a backslash stand for between double quotes. -/
def doubleEscapes : List (Char × Char) :=
  [('\\', '\\'), ('\'', '\''), ('"', '"'), ('a', '\x07'), ('b', '\x08'), ('f', '\x0c'),
    ('n', '\n'), ('r', '\r'), ('t', '\t'), ('v', '\x0b')]

/-- The characters that may stand after a backslash between single quotes. -/
def singleEscapes : List (Char × Char) := [('\\', '\\'), ('\'', '\'')]

/-- Replaces escapes. -/
def unescape (escapes : List (Char × Char)) : List Char → List Char
  | [] => []
  | ['\\'] => ['\\']
  | '\\' :: c :: cs =>
    match escapes.find? (·.1 == c) with
    | some (_, meant) => meant :: unescape escapes cs
    | none => '\\' :: unescape escapes (c :: cs)
  | c :: cs => c :: unescape escapes cs

/-- The text up to a comment: a number sign after blanks. -/
def beforeComment : List Char → List Char
  | [] => []
  | c :: cs =>
    if Text.isBlank c && ((c :: cs).dropWhile Text.isBlank).head? == some '#' then []
    else c :: beforeComment cs

/-- A value and the rest after it; an open quote is refused with what follows the equal sign. -/
def readValue (cs : List Char) : Except (List Char) (List Char × List Char) :=
  match cs with
  | '\'' :: rest =>
    match untilQuote '\'' rest with
    | some (text, rest) => .ok (unescape singleEscapes text, rest)
    | none => .error cs
  | '"' :: rest =>
    match untilQuote '"' rest with
    | some (text, rest) => .ok (unescape doubleEscapes text, rest)
    | none => .error cs
  | cs =>
    let line := cs.takeWhile (!isEnd ·)
    .ok (Text.trimEnd (beforeComment line), cs.dropWhile (!isEnd ·))

/-! ## Bindings -/

/-- The text after the word for exports, if it stands at the front. -/
def afterExport (cs : List Char) : List Char :=
  match cs with
  | 'e' :: 'x' :: 'p' :: 'o' :: 'r' :: 't' :: c :: rest =>
    if isGap c then rest.dropWhile isGap else cs
  | cs => cs

/-- The character may stand in a name without quotes. -/
def isNameChar (c : Char) : Bool := c != '=' && c != '#' && !Text.isBlank c

/-- The name of a binding and the rest after it; a comment has none. -/
def readName (cs : List Char) : Except (List Char) (Option (List Char) × List Char) :=
  match cs with
  | '#' :: _ => .ok (none, cs)
  | '\'' :: rest =>
    let name := rest.takeWhile (· != '\'')
    match rest.dropWhile (· != '\'') with
    | [] => .error cs
    | _ :: after => if name.isEmpty then .error cs else .ok (some name, after)
  | cs =>
    let name := cs.takeWhile isNameChar
    if name.isEmpty then .error cs else .ok (some name, cs.dropWhile isNameChar)

/-- The rest after the comment and the end of a line. -/
def readEnd (cs : List Char) : Except (List Char) (List Char) :=
  let cs := match cs.dropWhile isGap with
    | '#' :: rest => rest.dropWhile (!isEnd ·)
    | _ => cs
  match cs.dropWhile isGap with
  | [] => .ok []
  | '\r' :: '\n' :: rest => .ok rest
  | c :: rest => if isEnd c then .ok rest else .error cs

/-- A binding and the rest after it; what is no binding is refused with the text from its flaw on. -/
def readBinding (cs : List Char) :
    Except (List Char) (Option (String × Option String) × List Char) := do
  let (name, cs) ← readName (afterExport cs)
  let (value, cs) ← match cs.dropWhile isGap with
    | '=' :: rest => do
      let (value, cs) ← readValue (rest.dropWhile isGap)
      pure (some (String.ofList value), cs)
    | cs => pure (none, cs)
  let rest ← readEnd cs
  return (name.map fun name => (String.ofList name, value), rest)

/-- The text after the line that it starts in. -/
def afterLine (cs : List Char) : List Char :=
  match cs.dropWhile (!isEnd ·) with
  | [] => []
  | _ :: rest => rest

/-- The bindings of a text, in order. -/
def readFrom : Nat → List Char → Bindings
  | 0, _ => []
  | fuel + 1, cs =>
    match cs.dropWhile Text.isBlank with
    | [] => []
    | cs =>
      match readBinding cs with
      | .ok (some binding, rest) => binding :: readFrom fuel rest
      | .ok (none, rest) => readFrom fuel rest
      | .error rest => readFrom fuel (afterLine rest)

/-- The bindings of a text, in order. -/
def read (text : String) : Bindings := readFrom (text.length + 1) text.toList

/-! ## References -/

/-- The reference that a text starts with after its opening brace: the name, what stands for it if it
is not known, and the rest. -/
def reference? (cs : List Char) : Option (String × String × List Char) :=
  let isPart := fun c => c != '\x7d' && c != ':'
  let name := String.ofList (cs.takeWhile isPart)
  match cs.dropWhile isPart with
  | '\x7d' :: rest => some (name, "", rest)
  | ':' :: '-' :: cs =>
    match cs.dropWhile (· != '\x7d') with
    | [] => none
    | _ :: rest => some (name, String.ofList (cs.takeWhile (· != '\x7d')), rest)
  | _ => none

/-- The value of a variable; one without value counts as empty. -/
def valueOf (known : Bindings) (name default : String) : String :=
  match known.find? (·.1 == name) with
  | some (_, value) => value.getD ""
  | none => default

/-- Replaces references by values. -/
def expandFrom (known : Bindings) : Nat → List Char → List Char
  | 0, cs => cs
  | fuel + 1, cs =>
    match cs with
    | [] => []
    | '$' :: '\x7b' :: rest =>
      match reference? rest with
      | some (name, default, rest) =>
        (valueOf known name default).toList ++ expandFrom known fuel rest
      | none => '$' :: expandFrom known fuel ('\x7b' :: rest)
    | c :: cs => c :: expandFrom known fuel cs

/-- Replaces the references in the value of a binding. -/
def expand (known : Bindings) (value : String) : String :=
  String.ofList (expandFrom known (value.length + 1) value.toList)

/-- Replaces references in bindings one after the other; the last binding of a name counts. -/
def resolve (environment : Bindings) (bindings : Bindings) : Bindings :=
  bindings.foldl
    (fun known (name, value) => (name, value.map (expand (known ++ environment))) ::
      known.filter (·.1 != name))
    []

end Lintel.Variables
