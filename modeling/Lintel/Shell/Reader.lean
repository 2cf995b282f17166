import Lintel.Shell.Token

/-!
# Reading shell scripts

The tokens of a script are put together to a command (`read`). A script that is not well formed has a flaw
instead (`SyntaxFlaw`).
-/

namespace Lintel.Shell

/-- Why a script is not well formed. -/
inductive SyntaxFlaw where
  | openQuote
  | unexpected (token : String) (expected : Option String)
  deriving DecidableEq, Repr

/-- The message about a flaw. -/
def SyntaxFlaw.message : SyntaxFlaw → String
  | .openQuote => "Syntax error: Unterminated quoted string"
  | .unexpected token none => "Syntax error: " ++ token ++ " unexpected"
  | .unexpected token (some expected) =>
    "Syntax error: " ++ token ++ " unexpected (expecting \"" ++ expected ++ "\")"

/-- A reader of tokens. -/
abbrev Reader := StateT (List (Token × Nat)) (Except SyntaxFlaw)

/-- The text of a token if it is a plain word without quotes. -/
def bareText? : Token → Option String
  | .word parts =>
    let texts := parts.map fun
      | Part.plain text => some text
      | _ => none
    if texts.all Option.isSome && !parts.isEmpty then
      some (String.join (texts.filterMap fun t => t))
    else none
  | _ => none

/-- The words that end or join parts of compound commands. -/
def closers : List String := ["then", "else", "elif", "fi", "do", "done", "\x7d"]

/-- The words that have a meaning of their own where a command begins. -/
def reserved : List String := ["if", "while", "until", "for", "!", "\x7b"] ++ closers

/-- The name of a token in a message. -/
def tokenName : Option Token → String
  | none => "end of file"
  | some (.op "\n") => "newline"
  | some (.op text) => "\"" ++ text ++ "\""
  | some (.redirect ..) => "redirection"
  | some (.word parts) =>
    match bareText? (.word parts) with
    | some text => if reserved.contains text then "\"" ++ text ++ "\"" else "word"
    | none => "word"

/-- The next token. -/
def peek : Reader (Option Token) := do return (← get).head?.map (·.1)

/-- The line of the next token. -/
def lineHere : Reader Nat := do return ((← get).head?.map (·.2)).getD 1

/-- The next token cannot stand here. -/
def refuse {α : Type} (expected : Option String) : Reader α := do
  throw (.unexpected (tokenName (← peek)) expected)

/-- Passes over the next token. -/
def advance : Reader Unit := modify (·.drop 1)

/-- The next token is a given operator. -/
def atOp (op : String) : Reader Bool := do return (← peek) == some (.op op)

/-- The next token is a given bare word. -/
def atBare (text : String) : Reader Bool := do return (← peek).bind bareText? == some text

/-- Passes over a bare word that has to come. -/
def expectBare (text : String) : Reader Unit := do
  if ← atBare text then advance else refuse (some text)

/-- Passes over an operator that has to come. -/
def expectOp (op : String) : Reader Unit := do
  if ← atOp op then advance else refuse (some op)

/-- Passes over line ends. -/
def skipLines : Reader Unit := modify (·.dropWhile (·.1 == .op "\n"))

/-- The name and the value of an assignment. -/
def assignment? (word : Word) : Option (String × Word) :=
  let name := word.takeWhile fun
    | .plain text => text != "=" && text.toList.all isNameChar
    | _ => false
  let text := String.join (name.map fun
    | .plain text => text
    | _ => "")
  match word.drop name.length with
  | .plain "=" :: value =>
    if text.isEmpty || (text.toList.head?.map Char.isDigit).getD false then none
    else some (text, value)
  | _ => none

/-- The redirection that an opening and the word after it make. -/
def redirectOf (stream : Nat) (op : String) (word : Word) : Redirect :=
  match op with
  | ">>" => ⟨stream, .file word true⟩
  | ">&" | "<&" => ⟨stream, .stream word⟩
  | "<" => ⟨stream, .source word⟩
  | _ => ⟨stream, .file word false⟩

/-- The word after the opening of a redirection. -/
def redirectWord : Reader Word := do
  match ← peek with
  | some (.word word) => advance; return word
  | _ => refuse none

/-- Reads redirections. -/
def redirects : Nat → Reader (List Redirect)
  | 0 => refuse none
  | fuel + 1 => do
    match ← peek with
    | some (.redirect stream op) =>
      advance
      let word ← redirectWord
      return redirectOf stream op word :: (← redirects fuel)
    | _ => return []

/-- Reads the words, assignments and redirections of a simple command. -/
def simpleFrom (line : Nat) : Nat → List (String × Word) → List Word → List Redirect → Reader Command
  | 0, _, _, _ => refuse none
  | fuel + 1, assigned, words, found => do
    match ← peek with
    | some (.word word) =>
      advance
      match words, assignment? word with
      | [], some binding => simpleFrom line fuel (binding :: assigned) words found
      | _, _ => simpleFrom line fuel assigned (word :: words) found
    | some (.redirect stream op) =>
      advance
      let word ← redirectWord
      simpleFrom line fuel assigned words (redirectOf stream op word :: found)
    | _ =>
      if assigned.isEmpty && words.isEmpty && found.isEmpty then refuse none
      else return .simple line assigned.reverse words.reverse found.reverse

/-- Reads words up to the end of a line. -/
def wordsToEnd : Nat → Reader (List Word)
  | 0 => refuse none
  | fuel + 1 => do
    match ← peek with
    | some (.word word) => advance; return word :: (← wordsToEnd fuel)
    | _ => return []

/-- The separators of commands. -/
def isSeparator : Option Token → Bool
  | some (.op op) => op == ";" || op == "\n" || op == "&"
  | _ => false

/-- No further command can begin here. -/
def isClosed : Option Token → Bool
  | none => true
  | some (.op op) => op == ")" || op == ";;"
  | some token => (bareText? token).any closers.contains

mutual

/-- Reads commands one after the other. -/
def readRow : Nat → Reader Command
  | 0 => refuse none
  | fuel + 1 => do
    skipLines
    if isClosed (← peek) then return .nothing
    let first ← readChain fuel
    if isSeparator (← peek) then
      advance
      return .row first (← readRow fuel)
    else return first

/-- Reads pipelines joined by conditions. -/
def readChain : Nat → Reader Command
  | 0 => refuse none
  | fuel + 1 => do
    let first ← readPipeline fuel
    readChainAfter fuel first

/-- Reads the conditions after a pipeline. -/
def readChainAfter : Nat → Command → Reader Command
  | 0, _ => refuse none
  | fuel + 1, first => do
    if ← atOp "&&" then
      advance; skipLines
      let second ← readPipeline fuel
      readChainAfter fuel (.andThen first second)
    else if ← atOp "||" then
      advance; skipLines
      let second ← readPipeline fuel
      readChainAfter fuel (.orElse first second)
    else return first

/-- Reads commands joined by pipes. -/
def readPipeline : Nat → Reader Command
  | 0 => refuse none
  | fuel + 1 => do
    if ← atBare "!" then
      advance
      return .negated (← readPipeline fuel)
    let first ← readCommand fuel
    if ← atOp "|" then
      advance; skipLines
      return .pipe first (← readPipeline fuel)
    else return first

/-- Reads one command. -/
def readCommand : Nat → Reader Command
  | 0 => refuse none
  | fuel + 1 => do
    if ← atOp "(" then
      advance
      let body ← readRow fuel
      expectOp ")"
      return .group true body (← redirects fuel)
    match (← peek).bind bareText? with
    | some "\x7b" =>
      advance
      let body ← readRow fuel
      expectBare "\x7d"
      return .group false body (← redirects fuel)
    | some "if" =>
      advance
      let body ← readChoice fuel
      return .group false body (← redirects fuel)
    | some "while" => advance; readLoop fuel false
    | some "until" => advance; readLoop fuel true
    | some "for" => advance; readEach fuel
    | _ => simpleFrom (← lineHere) fuel [] [] []

/-- Reads a condition with what depends on it. -/
def readChoice : Nat → Reader Command
  | 0 => refuse none
  | fuel + 1 => do
    let condition ← readRow fuel
    expectBare "then"
    let body ← readRow fuel
    if ← atBare "elif" then
      advance
      return .choose condition body (← readChoice fuel)
    else if ← atBare "else" then
      advance
      let other ← readRow fuel
      expectBare "fi"
      return .choose condition body other
    else
      expectBare "fi"
      return .choose condition body .nothing

/-- Reads a loop with a condition. -/
def readLoop : Nat → Bool → Reader Command
  | 0, _ => refuse none
  | fuel + 1, negated => do
    let condition ← readRow fuel
    expectBare "do"
    let body ← readRow fuel
    expectBare "done"
    return .group false (.loop negated condition body) (← redirects fuel)

/-- Reads a loop over words. -/
def readEach : Nat → Reader Command
  | 0 => refuse none
  | fuel + 1 => do
    let some name := (← peek).bind bareText? | refuse none
    advance
    expectBare "in"
    let words ← wordsToEnd fuel
    if isSeparator (← peek) then advance
    skipLines
    expectBare "do"
    let body ← readRow fuel
    expectBare "done"
    return .group false (.each name words body) (← redirects fuel)

end

/-- Reads a script; a flaw comes with its line. -/
def read (script : String) : Except (Nat × SyntaxFlaw) Command := do
  let some all := tokens script | throw (1, .openQuote)
  let last := (all.getLast?.map (·.2)).getD 1
  let whole : Reader Command := do
    let command ← readRow (4 * all.length + 8)
    if (← get).isEmpty then return command else refuse none
  match StateT.run' whole all with
  | .ok command => return command
  | .error flaw => throw (last, flaw)

end Lintel.Shell
