import Lintel.Shell.Syntax

/-!
# Tokens of shell scripts

A script is read as a row of words, operators and the openings of redirections (`tokens`). Quotes and
references to variables and commands are told apart within words.
-/

namespace Lintel.Shell

/-- A token. -/
inductive Token where
  | word (word : Word)
  | op (text : String)
  | redirect (stream : Nat) (op : String)
  deriving DecidableEq, Repr

/-- A blank that does not end a line. -/
def isSpace (c : Char) : Bool := c == ' ' || c == '\t'

/-- The character ends a word. -/
def endsWord (c : Char) : Bool := isSpace c || "\n|&;<>()".toList.contains c

/-- The character may stand in a name. -/
def isNameChar (c : Char) : Bool := c.isAlphanum || c == '_'

/-- The text up to the bracket that closes the one before it, and the rest; quoted brackets do not
count. -/
def untilClosed : Nat → Option Char → List Char → Option (List Char × List Char)
  | _, _, [] => none
  | depth, quote, c :: cs =>
    let goOn := fun depth quote => (untilClosed depth quote cs).map fun (text, rest) => (c :: text, rest)
    match quote with
    | some q => goOn depth (if c == q then none else some q)
    | none =>
      if c == '\'' || c == '"' then goOn depth (some c)
      else if c == '(' then goOn (depth + 1) none
      else if c == ')' then
        match depth with
        | 0 => some ([], cs)
        | depth + 1 => goOn depth none
      else goOn depth none

/-- The reference in braces: a name, and perhaps what stands for it if it is not set. -/
def bracedReference (cs : List Char) : Option (String × String × List Char) :=
  match cs.dropWhile (· != '\x7d') with
  | [] => none
  | _ :: rest =>
    let body := cs.takeWhile (· != '\x7d')
    let isName := fun c => isNameChar c || "#?$@*!".toList.contains c
    let name := body.takeWhile isName
    let after := body.drop name.length
    let default := after.drop (if after.head? == some ':' then 2 else 1)
    some (String.ofList name, String.ofList default, rest)

/-- The part after a dollar sign, and the rest. -/
def reference? (quoted : Bool) (cs : List Char) : Option (Part × List Char) :=
  match cs with
  | '(' :: rest =>
    (untilClosed 0 none rest).map fun (text, rest) =>
      let part := if text.head? == some '(' && text.getLast? == some ')' then
          Part.arithmetic (String.ofList (text.drop 1).dropLast) quoted
        else .command (String.ofList text) quoted
      (part, rest)
  | '\x7b' :: rest =>
    (bracedReference rest).map fun (name, default, rest) => (.variable name default quoted, rest)
  | c :: rest =>
    if c.isDigit || "?$#@*!".toList.contains c then
      some (.variable (String.singleton c) "" quoted, rest)
    else
      let name := (c :: rest).takeWhile isNameChar
      if name.isEmpty then none
      else some (.variable (String.ofList name) "" quoted, (c :: rest).dropWhile isNameChar)
  | [] => none

/-- The command between grave accents. -/
def graveCommand (quoted : Bool) (cs : List Char) : Option (Part × List Char) :=
  match cs.dropWhile (· != '\x60') with
  | [] => none
  | _ :: rest => some (.command (String.ofList (cs.takeWhile (· != '\x60'))) quoted, rest)

/-- The parts between double quotes, and the rest. -/
def doubleQuoted : Nat → List Char → Option (Word × List Char)
  | 0, _ => none
  | fuel + 1, cs =>
    match cs with
    | [] => none
    | '"' :: rest => some ([.quoted ""], rest)
    | '\\' :: '\n' :: rest => doubleQuoted fuel rest
    | '\\' :: c :: rest =>
      let text := if "$\x60\"\\".toList.contains c then [c] else ['\\', c]
      (doubleQuoted fuel rest).map fun (word, rest) => (.quoted (String.ofList text) :: word, rest)
    | '$' :: rest =>
      let (part, rest) := (reference? true rest).getD (.quoted "$", rest)
      (doubleQuoted fuel rest).map fun (word, rest) => (part :: word, rest)
    | '\x60' :: rest => do
      let (part, rest) ← graveCommand true rest
      let (word, rest) ← doubleQuoted fuel rest
      return (part :: word, rest)
    | c :: rest =>
      (doubleQuoted fuel rest).map fun (word, rest) =>
        (.quoted (String.singleton c) :: word, rest)

/-- The parts of a word, and the rest. -/
def readWord : Nat → List Char → Option (Word × List Char)
  | 0, _ => none
  | fuel + 1, cs =>
    match cs with
    | [] => some ([], [])
    | '\\' :: '\n' :: rest => readWord fuel rest
    | '\\' :: c :: rest =>
      (readWord fuel rest).map fun (word, rest) => (.quoted (String.singleton c) :: word, rest)
    | '\'' :: rest =>
      match rest.dropWhile (· != '\'') with
      | [] => none
      | _ :: after =>
        (readWord fuel after).map fun (word, after) =>
          (.quoted (String.ofList (rest.takeWhile (· != '\''))) :: word, after)
    | '"' :: rest => do
      let (inner, rest) ← doubleQuoted (fuel + 1) rest
      let (word, rest) ← readWord fuel rest
      return (inner ++ word, rest)
    | '$' :: rest =>
      let (part, rest) := (reference? false rest).getD (.plain "$", rest)
      (readWord fuel rest).map fun (word, rest) => (part :: word, rest)
    | '\x60' :: rest => do
      let (part, rest) ← graveCommand false rest
      let (word, rest) ← readWord fuel rest
      return (part :: word, rest)
    | c :: rest =>
      if endsWord c then some ([], c :: rest)
      else
        (readWord fuel rest).map fun (word, rest) => (.plain (String.singleton c) :: word, rest)

/-- The operators, longer ones first. -/
def operators : List String := ["&&", "||", ";;", ";", "&", "|", "(", ")", "\n"]

/-- The openings of redirections, longer ones first. -/
def redirections : List String := [">>", ">&", "<&", ">|", ">", "<"]

/-- The first of some texts that a row of characters starts with, and the rest. -/
def firstOf (texts : List String) (cs : List Char) : Option (String × List Char) :=
  (texts.find? fun t => t.toList.isPrefixOf cs).map fun t => (t, cs.drop t.length)

/-- The stream that a redirection is about if no number is given. -/
def usualStream (op : String) : Nat := if op.startsWith "<" then 0 else 1

/-- The next token, and the rest. -/
def readToken (cs : List Char) : Option (Token × List Char) :=
  let digits := cs.takeWhile Char.isDigit
  match firstOf redirections (cs.dropWhile Char.isDigit), firstOf operators cs with
  | some (op, rest), none =>
    let stream := ((String.ofList digits).toNat?).getD (usualStream op)
    some (.redirect stream op, rest)
  | _, some (op, rest) => some (.op op, rest)
  | none, none => (readWord (cs.length + 1) cs).map fun (word, rest) => (.word word, rest)

/-- The text from the next token on: without blanks, comments and joined lines. -/
def skipToToken : Nat → List Char → List Char
  | 0, cs => cs
  | fuel + 1, cs =>
    match cs with
    | '\\' :: '\n' :: rest => skipToToken fuel rest
    | '#' :: rest => rest.dropWhile (· != '\n')
    | c :: rest => if isSpace c then skipToToken fuel rest else cs
    | [] => []

/-- The number of line ends in a text. -/
def lineEnds (cs : List Char) : Nat := cs.count '\n'

/-- The tokens of a text that starts on a line, each with its line. -/
def tokensFrom : Nat → Nat → List Char → Option (List (Token × Nat))
  | 0, _, _ => none
  | fuel + 1, line, cs =>
    let start := skipToToken (cs.length + 1) cs
    let line := line + (lineEnds cs - lineEnds start)
    match start with
    | [] => some []
    | start => do
      let (token, rest) ← readToken start
      return (token, line) :: (← tokensFrom fuel (line + (lineEnds start - lineEnds rest)) rest)

/-- The tokens of a script, each with its line; none if a quote is left open. -/
def tokens (script : String) : Option (List (Token × Nat)) :=
  tokensFrom (script.length + 1) 1 script.toList

end Lintel.Shell
