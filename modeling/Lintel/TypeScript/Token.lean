import Lintel.Json.Reader
import Lintel.TypeScript.Input

/-!
# Tokens

Names, operators, numbers, texts and templates. An operator is as long as it can be (`operatorLength`),
save where a type argument list is closed (`sign`).
-/

namespace Lintel.TypeScript

open Syntax (Node)

/-! ## Names -/

/-- The characters of ASCII that no name holds. -/
def separators : List Char := ":;`\"'@#.,|^&<=>+-*/\\%?!~()[]\x7b\x7d".toList

/-- The character may stand inside a name. -/
def isNameChar (c : Char) : Bool := 32 ≤ c.toNat && !isSpace c && !separators.contains c

/-- The character may start a name. -/
def isNameStart (c : Char) : Bool := isNameChar c && !('0' ≤ c && c ≤ '9')

/-- The number of characters of an escaped one in a name. -/
def escapeInName : List Char → Nat
  | '\\' :: 'u' :: '\x7b' :: cs =>
    let digits := cs.takeWhile fun c => (Json.hexValue? c).isSome
    if digits.isEmpty then 0 else digits.length + 4
  | '\\' :: 'u' :: cs => if (Json.codeUnit? cs).isSome then 6 else 0
  | _ => 0

/-- The number of characters that continue a name. -/
def nameLength : Nat → List Char → Nat
  | 0, _ => 0
  | _, [] => 0
  | fuel + 1, c :: cs =>
    if isNameChar c then nameLength fuel cs + 1
    else
      match escapeInName (c :: cs) with
      | 0 => 0
      | count => nameLength fuel ((c :: cs).drop count) + count

/-- The name at the front, empty if there is none. -/
def nameAt (cs : List Char) : List Char :=
  match cs with
  | [] => []
  | c :: _ => if isNameStart c || escapeInName cs != 0 then cs.take (nameLength cs.length cs) else []

/-- The words that are never the name of a value. -/
def reservedWords : List String :=
  ["break", "case", "catch", "class", "const", "continue", "debugger", "default", "delete", "do",
   "else", "enum", "export", "extends", "false", "finally", "for", "function", "if", "import", "in",
   "instanceof", "new", "null", "return", "super", "switch", "this", "throw", "true", "try", "typeof",
   "var", "void", "while", "with"]

/-- Reads the next `count` characters as a node without children. -/
def leaf (type : String) (named : Bool) (count : List Char → Nat) : Parse Phrase := do
  let before ← comments
  let input ← get
  let length := count input.rest
  if length == 0 then failure
  set (input.drop length)
  return before ++ [leafOf type named input length]

/-- Reads any name, reserved or not. -/
def anyName (type : String) : Parse Phrase := leaf type true fun cs => (nameAt cs).length

/-- Reads a name that is not reserved. -/
def nameOf (type : String) : Parse Phrase := do
  check fun cs => !reservedWords.contains (String.ofList (nameAt cs))
  anyName type

/-- Reads the name of a value. -/
def identifier : Parse Phrase := nameOf "identifier"

/-- The word stands at the front. -/
def isWord (word : String) (cs : List Char) : Bool := nameAt cs == word.toList

/-- Reads a word that the grammar does not name. -/
def word (text : String) : Parse Phrase := do
  check (isWord text)
  leaf text false fun _ => text.length

/-- Reads a word that the grammar names. -/
def namedWord (type text : String) : Parse Phrase := do
  check (isWord text)
  leaf type true fun _ => text.length

/-- Reads one of some words. -/
def oneOfWords (words : List String) : Parse Phrase := words.foldr (fun w p => word w <|> p) failure

/-! ## Operators -/

/-- The operators of two and more characters, longer ones first. -/
def longOperators : List String :=
  [">>>=", "...", "===", "!==", "**=", "<<=", ">>=", ">>>", "&&=", "||=", "??=", "=>", "==", "!=",
   "<=", ">=", "&&", "||", "??", "?.", "++", "--", "+=", "-=", "*=", "/=", "%=", "&=", "|=", "^=",
   "<<", ">>", "**"]

/-- The operator at the front; a question mark and a point before a digit are two. -/
def operatorAt (cs : List Char) : List Char :=
  match cs with
  | '?' :: '.' :: d :: _ => if '0' ≤ d && d ≤ '9' then ['?'] else ['?', '.']
  | _ =>
    match longOperators.find? fun op => op.toList.isPrefixOf cs with
    | some op => op.toList
    | none => cs.take 1

/-- The operator stands at the front. -/
def isOperator (text : String) (cs : List Char) : Bool := operatorAt cs == text.toList

/-- Reads an operator. -/
def operator (text : String) : Parse Phrase := do
  check (isOperator text)
  leaf text false fun _ => text.length

/-- Reads one of some operators. -/
def oneOfOperators (ops : List String) : Parse Phrase := ops.foldr (fun o p => operator o <|> p) failure

/-- Reads characters that may be the start of a longer operator. -/
def sign (text : String) : Parse Phrase := do
  check fun cs => text.toList.isPrefixOf cs
  leaf text false fun _ => text.length

/-- Reads a comma. -/
def comma : Parse Phrase := operator ","

/-- Reads rows between two operators, separated by commas, perhaps with a last comma. -/
def list (opening closing : String) (item : Parse Phrase) : Parse Phrase :=
  row [operator opening, separated comma item, optional comma, operator closing]

/-- Reads the end of a statement: a semicolon, or nothing where a line, a block or the text ends. -/
def semicolon : Parse Phrase :=
  operator ";" <|> (do
    let input ← get
    let found := gap input
    if found.hasLineEnd || found.input.rest.isEmpty || found.input.rest.head? == some '\x7d' then
      return []
    else failure)

/-! ## Numbers -/

/-- The character may stand inside a number, after its first digit. -/
def isNumberChar (c : Char) : Bool := c.isAlphanum || c == '_' || c == '.'

/-- The number of characters of a number; `previous` stands before them. -/
def numberLength (hex : Bool) (previous : Char) : List Char → Nat
  | [] => 0
  | c :: cs =>
    let signed := (c == '+' || c == '-') && !hex && (previous == 'e' || previous == 'E')
    if isNumberChar c || signed then numberLength hex c cs + 1 else 0

/-- Reads a number. -/
def number : Parse Phrase := do
  check fun cs =>
    match cs with
    | '.' :: d :: _ => d.isDigit
    | d :: _ => d.isDigit
    | [] => false
  leaf "number" true fun cs =>
    let hex := cs.head? == some '0' && cs[1]?.any fun c => "xXbBoO".toList.contains c
    numberLength hex ' ' cs

/-! ## Texts -/

/-- The number of characters of an escape after its backslash. -/
def escapeLength : List Char → Nat
  | 'x' :: _ => 3
  | 'u' :: '\x7b' :: cs => (cs.takeWhile (· != '\x7d')).length + 3
  | 'u' :: _ => 5
  | '\r' :: '\n' :: _ => 2
  | c :: cs =>
    let isOctal := fun (d : Char) => '0' ≤ d && d ≤ '7'
    if isOctal c then 1 + ((cs.take 2).takeWhile isOctal).length else 1
  | [] => 0

/-- Reads the next characters at once, without a gap before them. -/
def raw (type : String) (named : Bool) (count : Nat) : Parse Phrase := do
  let input ← get
  if count == 0 then failure
  set (input.drop count)
  return [leafOf type named input count]

/-- Reads an escaped character. -/
def escapeSequence : Parse Phrase := do
  match (← get).rest with
  | '\\' :: cs => raw "escape_sequence" true (1 + escapeLength cs)
  | _ => failure

/-- Reads plain characters up to one that satisfies `stop`. -/
def fragment (type : String) (stop : List Char → Bool) : Parse Phrase := do
  let rec count : List Char → Nat
    | [] => 0
    | c :: cs => if stop (c :: cs) then 0 else count cs + 1
  raw type true (count (← get).rest)

/-- Reads the quote at the front. -/
def quote (c : Char) : Parse Phrase := do
  match (← get).rest with
  | d :: _ => if d == c then raw (String.singleton c) false 1 else failure
  | [] => failure

/-- Reads a text between quotes; `escapes` says whether a backslash escapes. -/
def quotedText (escapes : Bool) (c : Char) : Parse Phrase :=
  let stop (cs : List Char) : Bool :=
    match cs with
    | d :: _ => d == c || (escapes && (d == '\\' || d == '\n'))
    | [] => true
  let part := fragment "string_fragment" stop
  node "string" (row [quote c, many (if escapes then part <|> escapeSequence else part), quote c])

/-- Reads a text. -/
def text : Parse Phrase := quotedText true '\'' <|> quotedText true '"'

/-- Reads a template; `inside` reads what stands in its substitutions. -/
def template (type substitution : String) (inside : Parse Phrase) : Parse Phrase :=
  let stop (cs : List Char) : Bool :=
    match cs with
    | '\x60' :: _ | '\\' :: _ | '$' :: '\x7b' :: _ | [] => true
    | _ => false
  let opening : Parse Phrase := do
    match (← get).rest with
    | '$' :: '\x7b' :: _ => raw "$\x7b" false 2
    | _ => failure
  let hole : Parse Phrase := do
    return [spanning substitution (← row [opening, inside, operator "\x7d"])]
  let parts := many (fragment "string_fragment" stop <|> escapeSequence <|> hole)
  node type (row [quote '\x60', parts, quote '\x60'])

/-- The number of characters of a pattern up to its closing slash; `inClass` says whether a character
class is open. -/
def patternLength : Bool → List Char → Option Nat
  | _, [] => none
  | _, '\n' :: _ => none
  | inClass, '\\' :: _ :: cs => (patternLength inClass cs).map (· + 2)
  | false, '/' :: _ => some 0
  | false, '[' :: cs => (patternLength true cs).map (· + 1)
  | true, ']' :: cs => (patternLength false cs).map (· + 1)
  | inClass, _ :: cs => (patternLength inClass cs).map (· + 1)

/-- Reads a regular expression. -/
def regex : Parse Phrase :=
  let body : Parse Phrase := do
    match patternLength false (← get).rest with
    | some (count + 1) => raw "regex_pattern" true (count + 1)
    | _ => failure
  let flags : Parse Phrase := do
    raw "regex_flags" true ((← get).rest.takeWhile Char.isAlpha).length
  node "regex" (row [sign "/", field "pattern" body, quote '/', optional (field "flags" flags)])

end Lintel.TypeScript
