import Lintel.Fault
import Lintel.Number.Integer
import Lintel.Pattern.Basic

/-!
# Reading patterns

`Pattern.read` reads a pattern from its text: literals, escapes, sets, groups and references to them,
alternatives, repetitions, conditions on what is ahead or behind, and flags at the start or in a group. A text
that is no pattern is refused with the cause and its place (`PatternFlaw.message`). The characters that have a
name are not listed here: what a name stands for is a parameter.
-/

namespace Lintel

/-- What is wrong with the text of a pattern. -/
inductive PatternCause where
  | escapeAtEnd
  | badEscape (escape : String)
  | shortEscape (escape : String)
  | octalRange (escape : String)
  | openSet
  | badRange (first last : String)
  | nothingToRepeat
  | repeatedTwice
  | bounds
  | openGroup
  | unbalanced
  | endOfPattern
  | openComment
  | unknownExtension (text : String)
  | missing (what : String)
  | badName (name : String)
  | unknownName (name : String)
  | nameTaken (name : String) (group earlier : Nat)
  | noGroup (group : Nat)
  | groupStillOpen
  | groupInSameCondition
  | groupZero
  | thirdBranch
  | unknownCharacter (name : String)
  | lateFlags
  | unknownFlag
  | badFlags (reason : String)
  | mixedFlags
  | tooOften
  | longNumber (digits : Nat)
  | variableWidth
  | farBehind
  | plainTemplate (sign : String)
  | tooLong
  deriving DecidableEq, Repr

/-- What is wrong with the text of a pattern, and where, if it is at one place. -/
structure PatternFlaw where
  cause : PatternCause
  place : Option Nat
  deriving DecidableEq, Repr

/-- What the message says of a cause. -/
def PatternCause.phrase : PatternCause → String
  | .escapeAtEnd => "bad escape (end of pattern)"
  | .badEscape escape => "bad escape " ++ escape
  | .shortEscape escape => "incomplete escape " ++ escape
  | .octalRange escape => "octal escape value " ++ escape ++ " outside of range 0-0o377"
  | .openSet => "unterminated character set"
  | .badRange first last => "bad character range " ++ first ++ "-" ++ last
  | .nothingToRepeat => "nothing to repeat"
  | .repeatedTwice => "multiple repeat"
  | .bounds => "min repeat greater than max repeat"
  | .openGroup => "missing ), unterminated subpattern"
  | .unbalanced => "unbalanced parenthesis"
  | .endOfPattern => "unexpected end of pattern"
  | .openComment => "missing ), unterminated comment"
  | .unknownExtension text => "unknown extension ?" ++ text
  | .missing what => "missing " ++ what
  | .badName name => "bad character in group name " ++ Text.quoted name
  | .unknownName name => "unknown group name " ++ Text.quoted name
  | .nameTaken name group earlier =>
    let quoted := Text.quoted name
    s!"redefinition of group name {quoted} as group {group}; was group {earlier}"
  | .noGroup group => s!"invalid group reference {group}"
  | .groupStillOpen => "cannot refer to an open group"
  | .groupInSameCondition => "cannot refer to group defined in the same lookbehind subpattern"
  | .groupZero => "bad group number"
  | .thirdBranch => "conditional backref with more than two branches"
  | .unknownCharacter name => "undefined character name " ++ Text.quoted name
  | .lateFlags => "global flags not at the start of the expression"
  | .unknownFlag => "unknown flag"
  | .badFlags reason => "bad inline flags: " ++ reason
  | .mixedFlags => "ASCII and UNICODE flags are incompatible"
  | .tooOften => Fault.repetition.message
  | .longNumber digits => (Fault.longInteger digits).message
  | .variableWidth => "look-behind requires fixed-width pattern"
  | .farBehind => "looks too much behind"
  | .plainTemplate sign => "internal: unsupported template operator " ++ sign
  | .tooLong => "pattern too long"

/-- The message for the text of a pattern; the place has a line and a column too if the text has
several lines. -/
def PatternFlaw.message (pattern : String) (flaw : PatternFlaw) : String :=
  match flaw.place with
  | none => flaw.cause.phrase
  | some place =>
    let (line, column) := Json.lineColumn (pattern.toList.take place)
    flaw.cause.phrase ++ s!" at position {place}" ++
      (if pattern.toList.contains '\n' then s!" (line {line}, column {column})" else "")

/-- The fault of a text that is no pattern; numbers that are too large and flags that exclude each other are
faults of other kinds. -/
def PatternFlaw.fault (pattern : String) (flaw : PatternFlaw) : Fault :=
  match flaw.cause with
  | .mixedFlags => .raised .value flaw.cause.phrase
  | .tooOften => .repetition
  | .longNumber digits => .longInteger digits
  | _ => .pattern (flaw.message pattern)

namespace Pattern

/-! ## Widths -/

/-- The least and the greatest length of a match; none if there is no greatest. -/
abbrev Width := Nat × Option Nat

/-- The width of a repetition. -/
def Width.times (least : Nat) (most : Option Nat) (width : Width) : Width :=
  (least * width.1, match most, width.2 with
    | some most, some high => some (most * high)
    | some 0, none | none, some 0 => some 0
    | _, _ => none)

/-- The width of a pattern that may refer to groups of known widths. -/
def width (known : List (Nat × Width)) : Pattern → Width
  | .empty | .anchor _ | .ahead .. | .behind .. => (0, some 0)
  | .one _ => (1, some 1)
  | .seq p q =>
    let (low, high) := width known p
    let (low', high') := width known q
    (low + low', do return (← high) + (← high'))
  | .either p q | .ifGroup _ p q =>
    let (low, high) := width known p
    let (low', high') := width known q
    (min low low', do return max (← high) (← high'))
  | .repeated least most _ p => (width known p).times least most
  | .capture _ p | .atomic p => width known p
  | .same group _ => (known.lookup group).getD (0, some 0)

/-! ## Tokens -/

/-- A character of the text, or two if the first is a backslash, with its place. -/
structure Token where
  chars : List Char
  place : Nat

/-- The tokens of a text whose first character is at `place`. -/
def tokensFrom (place : Nat) : List Char → List Token
  | [] => []
  | '\\' :: c :: cs => ⟨['\\', c], place⟩ :: tokensFrom (place + 2) cs
  | c :: cs => ⟨[c], place⟩ :: tokensFrom (place + 1) cs

/-- How characters and anchors are meant. -/
structure Flags where
  ignoreCase : Bool := false
  multiline : Bool := false
  dotAll : Bool := false
  verbose : Bool := false
  ascii : Bool := false
  unicode : Bool := false
  template : Bool := false

/-- Which characters are alike. -/
def Flags.caseRule (flags : Flags) : CaseRule :=
  if flags.ignoreCase then (if flags.ascii then .ascii else .full) else .exact

/-- What is left of the text and what is known of its groups: how many there are, their names, the widths of
those that are closed, those that are asked for by their numbers, and which is the first one in the condition
on what is behind that is being read. -/
structure State where
  rest : List Token
  size : Nat
  flags : Flags
  character : String → Option Nat
  groups : Nat := 1
  names : List (String × Nat) := []
  widths : List (Nat × Width) := []
  asked : List (Nat × Nat) := []
  behind : Option Nat := none

/-- A step of the reader. -/
abbrev Reader := StateT State (Except PatternFlaw)

/-- The place of the next token. -/
def tell : Reader Nat := do
  let s ← get
  return match s.rest with
    | [] => s.size
    | token :: _ => token.place

/-- Refuses the text, `back` characters before the next token. -/
def refuse {α : Type} (cause : PatternCause) (back : Nat := 0) : Reader α := do
  throw ⟨cause, some ((← tell) - back)⟩

/-- The characters of the next token. -/
def peek? : Reader (Option (List Char)) := do
  return (← get).rest.head?.map Token.chars

/-- Continues with the given tokens; a lone backslash cannot come next. -/
def continueWith (rest : List Token) : Reader Unit := do
  match rest with
  | ⟨['\\'], place⟩ :: _ => throw ⟨.escapeAtEnd, some place⟩
  | _ => modify fun s => { s with rest := rest }

/-- Takes the next token. -/
def take? : Reader (Option (List Char)) := do
  match (← get).rest with
  | [] => return none
  | token :: rest =>
    continueWith rest
    return some token.chars

/-- Takes the next token if it is the character `c`. -/
def accept (c : Char) : Reader Bool := do
  if (← peek?) == some [c] then
    let _ ← take?
    return true
  return false

/-- Takes up to `count` characters that satisfy `p`. -/
def takeWhileUpTo (p : Char → Bool) : Nat → Reader (List Char)
  | 0 => return []
  | count + 1 => do
    match ← peek? with
    | some [c] =>
      if p c then
        let _ ← take?
        return c :: (← takeWhileUpTo p count)
      return []
    | _ => return []

/-- Takes the characters up to `stop`; `done` are those so far. -/
def takeUntilFrom (stop : Char) (what : String) : Nat → List Char → Reader String
  | 0, _ => refuse .tooLong
  | fuel + 1, done => do
    match ← take? with
    | none =>
      if done.isEmpty then refuse (.missing what)
      refuse (.missing (String.singleton stop ++ ", unterminated name")) done.length
    | some cs =>
      if cs == [stop] then
        if done.isEmpty then refuse (.missing what) 1
        return String.ofList done
      takeUntilFrom stop what fuel (done ++ cs)

/-- Takes the characters up to `stop`, which `what` names in a refusal. -/
def takeUntil (stop : Char) (what : String) : Reader String := do
  takeUntilFrom stop what ((← get).size + 1) []

/-! ## Escapes -/

/-- The character is an octal digit. -/
def isOctal (c : Char) : Bool := '0' ≤ c && c ≤ '7'

/-- The value of a row of digits in a base. -/
def valueIn (base : Nat) (cs : List Char) : Nat :=
  cs.foldl (fun n c => n * base + (Json.hexValue? c).getD 0) 0

/-- The character that an escaped letter names. -/
def controlOf? : Char → Option Nat
  | 'a' => some 7
  | 'b' => some 8
  | 'f' => some 12
  | 'n' => some 10
  | 'r' => some 13
  | 't' => some 9
  | 'v' => some 11
  | '\\' => some 92
  | _ => none

/-- The class of characters that an escaped letter names. -/
def classOf? (ascii : Bool) : Char → Option CharItem
  | 'd' => some (.named .digit false ascii)
  | 'D' => some (.named .digit true ascii)
  | 's' => some (.named .blank false ascii)
  | 'S' => some (.named .blank true ascii)
  | 'w' => some (.named .word false ascii)
  | 'W' => some (.named .word true ascii)
  | _ => none

/-- The code point after an escape with exactly `count` hexadecimal digits. -/
def hexEscape (letter : Char) (count : Nat) : Reader Nat := do
  let digits ← takeWhileUpTo (fun c => (Json.hexValue? c).isSome) count
  let escape := '\\' :: letter :: digits
  if digits.length != count then refuse (.shortEscape (String.ofList escape)) escape.length
  let code := valueIn 16 digits
  if 0x110000 ≤ code then refuse (.badEscape (String.ofList escape)) escape.length
  return code

/-- The code point of a character that is given by its name. -/
def namedEscape : Reader Nat := do
  if !(← accept '\x7b') then refuse (.missing "\x7b")
  let name ← takeUntil '\x7d' "character name"
  match (← get).character name with
  | some code => return code
  | none => refuse (.unknownCharacter name) (name.length + 4)

/-- The code point of an escape that is the same inside a set and outside. -/
def plainEscape (c : Char) : Reader Nat := do
  match c with
  | 'x' => hexEscape c 2
  | 'u' => hexEscape c 4
  | 'U' => hexEscape c 8
  | 'N' => namedEscape
  | _ =>
    if c.isAlpha || c.isDigit then refuse (.badEscape (String.ofList ['\\', c])) 2
    return c.toNat

/-- An item of a set that is one code point. -/
def single (code : Nat) : CharItem := .range code code

/-- The item for an escape inside a set. -/
def setEscape (flags : Flags) (c : Char) : Reader CharItem := do
  match controlOf? c, classOf? flags.ascii c with
  | some code, _ => return single code
  | none, some item => return item
  | none, none =>
    if isOctal c then
      let digits := c :: (← takeWhileUpTo isOctal 2)
      let code := valueIn 8 digits
      let escape := '\\' :: digits
      if 0o377 < code then refuse (.octalRange (String.ofList escape)) escape.length
      return single code
    return single (← plainEscape c)

/-- The pattern of one character out of some items. -/
def oneOf (flags : Flags) (items : List CharItem) (negated : Bool := false) : Pattern :=
  .one ⟨items, negated, flags.caseRule⟩

/-- The pattern of one code point. -/
def literal (flags : Flags) (code : Nat) : Pattern := oneOf flags [single code]

/-- A part of a row, as far as repetition has to know it. -/
inductive Piece where
  | plain (p : Pattern)
  | place (p : Pattern)
  | repetition (p : Pattern)

/-- The pattern of a part. -/
def Piece.pattern : Piece → Pattern
  | .plain p => p
  | .place p => p
  | .repetition p => p

/-- Refuses a reference to a group in the condition on what is behind that the group stands in. -/
def checkBehind (group : Nat) : Reader Unit := do
  let s ← get
  if let some first := s.behind then
    if (s.widths.lookup group).isNone then refuse .groupStillOpen
    if first ≤ group then refuse .groupInSameCondition

/-- A reference to a group; `back` is how far before the next token it starts. -/
def referTo (flags : Flags) (group back : Nat) : Reader Piece := do
  if ((← get).widths.lookup group).isNone then refuse .groupStillOpen back
  checkBehind group
  return .plain (.same group flags.caseRule)

/-- A reference to a group by its number; the digits start with `first`. -/
def groupReference (flags : Flags) (first : Char) : Reader Piece := do
  let mut digits := [first]
  if let some [second] ← peek? then
    if second.isDigit then
      let _ ← take?
      digits := [first, second]
      if let some [third] ← peek? then
        if isOctal first && isOctal second && isOctal third then
          let _ ← take?
          let code := valueIn 8 [first, second, third]
          if 0o377 < code then
            refuse (.octalRange (String.ofList ['\\', first, second, third])) 4
          return .plain (literal flags code)
  let group := valueIn 10 digits
  if (← get).groups ≤ group then refuse (.noGroup group) digits.length
  referTo flags group (digits.length + 1)

/-- The part for an escape outside a set. -/
def escape (flags : Flags) (c : Char) : Reader Piece := do
  match c with
  | 'A' => return .place (.anchor .textStart)
  | 'Z' => return .place (.anchor .textEnd)
  | 'b' => return .place (.anchor (.wordEdge false flags.ascii))
  | 'B' => return .place (.anchor (.wordEdge true flags.ascii))
  | '0' =>
    let digits ← takeWhileUpTo isOctal 2
    return .plain (literal flags (valueIn 8 (c :: digits)))
  | _ =>
    match classOf? flags.ascii c, controlOf? c with
    | some item, _ => return .plain (oneOf flags [item])
    | none, some code => return .plain (literal flags code)
    | none, none =>
      if c.isDigit then groupReference flags c
      else return .plain (literal flags (← plainEscape c))

/-! ## Sets -/

/-- The item for a token inside a set, and whether it is one code point. -/
def setItem (flags : Flags) (token : List Char) : Reader CharItem := do
  match token with
  | ['\\', c] => setEscape flags c
  | c :: _ => return single c.toNat
  | [] => return single 0

/-- The code point of an item that is one. -/
def codeOf? : CharItem → Option Nat
  | .range first last => if first == last then some first else none
  | .named .. => none

/-- Reads the items of a set up to its closing bracket; the set opened at `start`. -/
def readSet (flags : Flags) (start : Nat) : Nat → List CharItem → Reader (List CharItem)
  | 0, _ => refuse .tooLong
  | fuel + 1, items => do
    let some token ← take? | throw ⟨.openSet, some start⟩
    if token == [']'] && !items.isEmpty then return items
    let item ← setItem flags token
    if ← accept '-' then
      let some upper ← take? | throw ⟨.openSet, some start⟩
      if upper == [']'] then return items ++ [item, single '-'.toNat]
      let last ← setItem flags upper
      let cause := PatternCause.badRange (String.ofList token) (String.ofList upper)
      let size := token.length + 1 + upper.length
      match codeOf? item, codeOf? last with
      | some first, some last =>
        if last < first then refuse cause size
        readSet flags start fuel (items ++ [.range first last])
      | _, _ => refuse cause size
    else readSet flags start fuel (items ++ [item])

/-! ## Repetition -/

/-- The bound that digits give; none if there are no digits. -/
def boundOf (digits : List Char) : Reader (Option Nat) := do
  if digits.isEmpty then return none
  if Number.maxIntegerDigits < digits.length then throw ⟨.longNumber digits.length, none⟩
  let bound := valueIn 10 digits
  if 0xffffffff ≤ bound then throw ⟨.tooOften, none⟩
  return some bound

/-- Reads bounds after an opening brace; none if the brace stands for itself. -/
def readBounds (fuel : Nat) : Reader (Option (Nat × Option Nat)) := do
  let here ← get
  if (← peek?) == some ['\x7d'] then return none
  let low ← takeWhileUpTo Char.isDigit fuel
  let high ← if ← accept ',' then takeWhileUpTo Char.isDigit fuel else pure low
  if !(← accept '\x7d') then
    set here
    return none
  let least := (← boundOf low).getD 0
  let most ← boundOf high
  if most.any (· < least) then throw ⟨.bounds, here.rest.head?.map Token.place⟩
  return some (least, most)

/-- Repeats the last of some parts, given last first; `start` is the place of the repetition sign. A
repetition that gives nothing back is an atomic group, and so is each of its steps. -/
def repeatLast (start : Nat) (least : Nat) (most : Option Nat) (done : List Piece) :
    Reader (List Piece) := do
  match done with
  | .plain p :: before =>
    if ← accept '?' then return .repetition (.repeated least most true p) :: before
    if ← accept '+' then
      return .repetition (.atomic (.repeated least most false (.atomic p))) :: before
    return .repetition (.repeated least most false p) :: before
  | .repetition _ :: _ => throw ⟨.repeatedTwice, some start⟩
  | _ => throw ⟨.nothingToRepeat, some start⟩

/-! ## Groups -/

/-- The letters of flags. -/
def isFlag (c : Char) : Bool := "iLmsxatu".toList.contains c

/-- Sets a flag. -/
def Flags.set (flags : Flags) (value : Bool) : Char → Flags
  | 'i' => { flags with ignoreCase := value }
  | 'm' => { flags with multiline := value }
  | 's' => { flags with dotAll := value }
  | 'x' => { flags with verbose := value }
  | 'a' => { flags with ascii := value }
  | 'u' => { flags with unicode := value }
  | 't' => { flags with template := value }
  | _ => flags

/-- The flags of a group that turns some on and others off; of the repertoires it has the one that it turns
on. -/
def Flags.inGroup (flags : Flags) (on off : List Char) : Flags :=
  let flags :=
    if on.contains 'a' || on.contains 'u' then { flags with ascii := false, unicode := false }
    else flags
  off.foldl (·.set false ·) (on.foldl (·.set true ·) flags)

/-- Why flags cannot be turned on. -/
def onRefusal? (flags : List Char) : Option String :=
  if flags.contains 'L' then some "cannot use 'L' flag with a str pattern"
  else if flags.contains 'a' && flags.contains 'u' then
    some "flags 'a', 'u' and 'L' are incompatible"
  else none

/-- Why flags cannot be turned off. -/
def offRefusal? (flags : List Char) : Option String :=
  if flags.any "auL".toList.contains then some "cannot turn off flags 'a', 'u' and 'L'" else none

/-- Reads the flags of a group after their first character; `done` are the flags so far. Gives the
flags and what ended them. -/
def readFlags (refusal? : List Char → Option String) (what : String) (stops : List Char) :
    Nat → Char → List Char → Reader (List Char × Char)
  | 0, _, _ => refuse .tooLong
  | fuel + 1, c, done => do
    let done := done ++ [c]
    if let some reason := refusal? done then refuse (.badFlags reason)
    match ← take? with
    | none => refuse (.missing what)
    | some [next] =>
      if stops.contains next then return (done, next)
      if isFlag next then readFlags refusal? what stops fuel next done
      else if Unicode.isLetter next then refuse .unknownFlag 1
      else refuse (.missing what) 1
    | some token => refuse (.missing what) token.length

/-- Reads the flags that a group turns off. -/
def readOffFlags (fuel : Nat) : Reader (List Char) := do
  match ← take? with
  | some [c] =>
    if isFlag c then return (← readFlags offRefusal? ":" [':'] fuel c []).1
    else if Unicode.isLetter c then refuse .unknownFlag 1
    else refuse (.missing "flag") 1
  | some token => refuse (.missing "flag") token.length
  | none => refuse (.missing "flag")

/-- How the group that starts here is to be read. -/
inductive GroupKind where
  | group (name : Option String)
  | uncaptured (flags : Flags)
  | atomic
  | lookAhead (negated : Bool)
  | lookBehind (negated : Bool)
  | reference (piece : Piece)
  | condition (group : Nat)
  | comment
  | globalFlags (flags : Flags)

/-- Passes over a comment in a group that opened at `start`. -/
def skipComment (start : Nat) : Nat → Reader Unit
  | 0 => refuse .tooLong
  | fuel + 1 => do
    if (← peek?).isNone then throw ⟨.openComment, some start⟩
    if (← take?) == some [')'] then return ()
    skipComment start fuel

/-- Reads a group's own flags, of which the first character is `c`. -/
def flagGroup (fuel : Nat) (flags : Flags) (c : Char) : Reader GroupKind := do
  let (on, stop) ← if c == '-' then pure ([], '-') else
    readFlags onRefusal? "-, : or )" [')', '-', ':'] fuel c []
  if stop == ')' then return .globalFlags (on.foldl (·.set true ·) (← get).flags)
  if on.contains 't' then refuse (.badFlags "cannot turn on global flag") 1
  let off ← if stop == '-' then readOffFlags fuel else pure []
  if off.contains 't' then refuse (.badFlags "cannot turn off global flag") 1
  if on.any off.contains then refuse (.badFlags "flag turned on and off") 1
  return .uncaptured (flags.inGroup on off)

/-- The name of a group up to `stop`. -/
def groupName (stop : Char) : Reader String := do
  let name ← takeUntil stop "group name"
  if !Unicode.isIdentifier name.toList then refuse (.badName name) (name.length + 1)
  return name

/-- The group with a name that was just taken. -/
def groupNamed (name : String) : Reader Nat := do
  match (← get).names.lookup name with
  | none => refuse (.unknownName name) (name.length + 1)
  | some group => return group

/-- The most groups that a pattern may have. -/
def maxGroups : Nat := 1073741823

/-- The group that a condition asks for, by its name or by its number. -/
def askedGroup : Reader Nat := do
  let name ← takeUntil ')' "group name"
  let back := name.length + 1
  if Unicode.isIdentifier name.toList then groupNamed name
  else
    match Number.readInteger name.toList with
    | .ok (.ofNat 0) => refuse .groupZero back
    | .ok (.ofNat group) =>
      if maxGroups ≤ group then refuse (.noGroup group) back
      let place := (← tell) - back
      modify fun s =>
        if (s.asked.lookup group).isSome then s else { s with asked := s.asked ++ [(group, place)] }
      return group
    | _ => refuse (.badName name) back

/-- Reads what follows an opening parenthesis and tells the kind of the group. -/
def groupKind (fuel start : Nat) (flags : Flags) : Reader GroupKind := do
  if !(← accept '?') then return .group none
  match ← take? with
  | none => refuse .endOfPattern
  | some [':'] => return .uncaptured flags
  | some ['>'] => return .atomic
  | some ['='] => return .lookAhead false
  | some ['!'] => return .lookAhead true
  | some ['#'] =>
    skipComment start fuel
    return .comment
  | some ['('] =>
    let group ← askedGroup
    checkBehind group
    return .condition group
  | some ['<'] =>
    match ← take? with
    | none => refuse .endOfPattern
    | some ['='] => return .lookBehind false
    | some ['!'] => return .lookBehind true
    | some token => refuse (.unknownExtension ("<" ++ String.ofList token)) (token.length + 2)
  | some ['P'] =>
    if ← accept '<' then return .group (some (← groupName '>'))
    if ← accept '=' then
      let name ← groupName ')'
      return .reference (← referTo flags (← groupNamed name) (name.length + 1))
    match ← take? with
    | none => refuse .endOfPattern
    | some token => refuse (.unknownExtension ("P" ++ String.ofList token)) (token.length + 2)
  | some [c] =>
    if isFlag c || c == '-' then flagGroup fuel flags c
    else refuse (.unknownExtension (String.singleton c)) 2
  | some token => refuse (.unknownExtension (String.ofList token)) (token.length + 1)

/-- Counts a new group. -/
def openGroup (name : Option String) : Reader Nat := do
  let s ← get
  let group := s.groups
  let mut names := s.names
  if let some name := name then
    if let some earlier := s.names.lookup name then
      refuse (.nameTaken name group earlier) (name.length + 1)
    names := names ++ [(name, group)]
  set { s with groups := group + 1, names := names }
  return group

/-- From now on the group can be referred to. -/
def closeGroup (group : Nat) (p : Pattern) : Reader Unit :=
  modify fun s => { s with widths := (group, width s.widths p) :: s.widths }

/-- The row of some parts, given last first. -/
def rowOf (pieces : List Piece) : Pattern :=
  pieces.foldl (fun row piece => match row with
    | .empty => piece.pattern
    | row => .seq piece.pattern row) .empty

/-- Passes over a comment that ends with its line. -/
def skipLine : Nat → Reader Unit
  | 0 => return ()
  | fuel + 1 => do
    match ← take? with
    | none | some ['\n'] => return ()
    | _ => skipLine fuel

mutual

/-- Reads alternatives up to a closing parenthesis or the end. -/
def readEither (top : Bool) (flags : Flags) : Nat → Reader Pattern
  | 0 => refuse .tooLong
  | fuel + 1 => do
    let first ← readRow top flags fuel []
    let flags ← if top then do pure (← get).flags else pure flags
    if ← accept '|' then return .either first (← readEither false flags fuel)
    return first

/-- Reads a row of parts; `done` are the parts so far, last first. -/
def readRow (top : Bool) (flags : Flags) : Nat → List Piece → Reader Pattern
  | 0, _ => refuse .tooLong
  | fuel + 1, done => do
    let flags ← if top then do pure (← get).flags else pure flags
    let start ← tell
    match ← peek? with
    | none | some ['|'] | some [')'] => return rowOf done
    | some token =>
      let _ ← take?
      let add (p : Pattern) := readRow top flags fuel (.plain p :: done)
      let again (least : Nat) (most : Option Nat) := do
        readRow top flags fuel (← repeatLast start least most done)
      match token with
      | ['\\', c] => readRow top flags fuel ((← escape flags c) :: done)
      | ['.'] =>
        if flags.dotAll then add (.one ⟨[], true, .exact⟩)
        else add (.one ⟨[single 10], true, .exact⟩)
      | ['^'] =>
        let place := if flags.multiline then Anchor.lineStart else .textStart
        readRow top flags fuel (.place (.anchor place) :: done)
      | ['$'] =>
        let place := if flags.multiline then Anchor.lineEnd else .lastLineEnd
        readRow top flags fuel (.place (.anchor place) :: done)
      | ['['] =>
        let negated ← accept '^'
        let items ← readSet flags start fuel []
        add (oneOf flags items negated)
      | ['*'] => again 0 none
      | ['+'] => again 1 none
      | ['?'] => again 0 (some 1)
      | ['\x7b'] =>
        match ← readBounds fuel with
        | none => add (literal flags 0x7b)
        | some (least, most) => again least most
      | ['('] =>
        let close : Reader Unit := do
          if !(← accept ')') then throw ⟨.openGroup, some start⟩
        match ← groupKind fuel start flags with
        | .comment => readRow top flags fuel done
        | .globalFlags set =>
          if !top || !done.isEmpty then throw ⟨.lateFlags, some start⟩
          modify fun s => { s with flags := set }
          readRow top set fuel done
        | .group name =>
          let group ← openGroup name
          let p ← readEither false flags fuel
          close
          closeGroup group p
          add (.capture group p)
        | .uncaptured inner =>
          let p ← readEither false inner fuel
          close
          add p
        | .atomic =>
          let p ← readEither false flags fuel
          close
          add (.atomic p)
        | .lookAhead negated =>
          let p ← readEither false flags fuel
          close
          add (.ahead negated p)
        | .lookBehind negated =>
          let before := (← get).behind
          modify fun s => { s with behind := some (before.getD s.groups) }
          let p ← readEither false flags fuel
          modify fun s => { s with behind := before }
          close
          add (.behind negated (width (← get).widths p).1 p)
        | .reference piece => readRow top flags fuel (piece :: done)
        | .condition group =>
          let yes ← readRow false flags fuel []
          let no ← if ← accept '|' then readRow false flags fuel [] else pure .empty
          if (← peek?) == some ['|'] then refuse .thirdBranch
          close
          add (.ifGroup group yes no)
      | [c] =>
        if flags.verbose && (c == ' ' || (9 ≤ c.toNat && c.toNat ≤ 13)) then
          readRow top flags fuel done
        else if flags.verbose && c == '#' then
          skipLine fuel
          readRow top flags fuel done
        else add (literal flags c.toNat)
      | _ => refuse .tooLong

end

/-- What a pattern cannot be used for, if it can be read: conditions on what is behind have one width, and a
template repeats nothing. -/
def flaw? (template : Bool) (known : List (Nat × Width)) : Pattern → Option PatternCause
  | .empty | .one _ | .anchor _ | .same .. => none
  | .seq p q | .either p q | .ifGroup _ p q =>
    (flaw? template known p).orElse fun _ => flaw? template known q
  | .repeated _ _ reluctant p =>
    if template then some (.plainTemplate (if reluctant then "MIN_REPEAT" else "MAX_REPEAT"))
    else flaw? template known p
  | .atomic (.repeated _ _ false (.atomic p)) =>
    if template then some (.plainTemplate "POSSESSIVE_REPEAT") else flaw? template known p
  | .ahead _ p | .capture _ p | .atomic p => flaw? template known p
  | .behind _ _ p =>
    let (low, high) := width known p
    if 0xffffffff < low then some .farBehind
    else if high != some low then some .variableWidth
    else flaw? template known p

/-- Reads a whole pattern. -/
def readAll (fuel : Nat) : Reader Pattern := do
  continueWith (← get).rest
  let p ← readEither true (← get).flags fuel
  let s ← get
  if s.flags.ascii && s.flags.unicode then throw ⟨.mixedFlags, none⟩
  if (← peek?).isSome then refuse .unbalanced
  if let some (group, place) := s.asked.find? (s.groups ≤ ·.1) then
    throw ⟨.noGroup group, some place⟩
  match flaw? s.flags.template s.widths p with
  | some cause => throw ⟨cause, none⟩
  | none => return p

/-- No character has a name. -/
def unnamed : String → Option Nat := fun _ => none

/-- Reads a pattern. -/
def read (text : String) (flags : Flags := {}) (character : String → Option Nat := unnamed) :
    Except PatternFlaw Pattern := do
  let cs := text.toList
  let s : State := { rest := tokensFrom 0 cs, size := cs.length, flags, character }
  return (← (readAll (2 * cs.length + 4)).run s).1

end Pattern

end Lintel
