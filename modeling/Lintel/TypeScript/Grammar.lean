import Lintel.TypeScript.Token

/-!
# The grammar and its common parts

The readings of the grammar call each other without end. Each of them is therefore given the others
(`Grammar`); they are tied together where the whole text is read. Here are the parts that types,
expressions and statements share.
-/

namespace Lintel.TypeScript

/-- The readings that all parts of the grammar come back to. -/
structure Grammar where
  /-- The text may hold markup. -/
  markup : Bool
  /-- An expression, perhaps a row of them with commas. -/
  expression : Parse Phrase
  /-- An expression without a comma. -/
  assignment : Parse Phrase
  /-- An operand. -/
  unary : Parse Phrase
  /-- What stands after `new`. -/
  constructed : Parse Phrase
  /-- A type. -/
  type : Parse Phrase
  /-- What a value is bound to. -/
  binding : Parse Phrase
  /-- A statement. -/
  statement : Parse Phrase
  /-- A piece of markup. -/
  element : Parse Phrase

namespace Grammar

variable (g : Grammar)

/-- Reads a block of statements. -/
def block : Parse Phrase :=
  node "statement_block" (row [operator "\x7b", many g.statement, operator "\x7d"])

/-- Reads what stands for several elements. -/
def spread : Parse Phrase := node "spread_element" (row [operator "...", g.assignment])

/-- Reads the arguments of a call. -/
def arguments : Parse Phrase := node "arguments" (list "(" ")" (g.spread <|> g.assignment))

/-- Reads an expression in parentheses. -/
def parenthesized : Parse Phrase :=
  node "parenthesized_expression" (row [operator "(", g.expression, operator ")"])

/-- Reads the value that something starts with. -/
def initializer : Parse Phrase := row [operator "=", field "value" g.assignment]

/-- Reads the type that is noted after a colon. -/
def typeAnnotation : Parse Phrase :=
  field "type" (node "type_annotation" (row [operator ":", g.type]))

/-- Reads the arguments of a type. -/
def typeArguments : Parse Phrase :=
  node "type_arguments" (row [sign "<", separated comma g.type, optional comma, sign ">"])

/-! ## Names of members -/

/-- Reads a private name. -/
def privateName : Parse Phrase :=
  leaf "private_property_identifier" true fun cs =>
    match cs with
    | '#' :: rest => if (nameAt rest).isEmpty then 0 else (nameAt rest).length + 1
    | _ => 0

/-- Reads a name that is computed. -/
def computedName : Parse Phrase :=
  node "computed_property_name" (row [operator "[", g.expression, operator "]"])

/-- Reads the name of a member. -/
def memberName : Parse Phrase :=
  field "name" (anyName "property_identifier" <|> privateName <|> text <|> number <|> g.computedName)

/-- Reads the name of a pair. -/
def keyName : Parse Phrase :=
  field "key" (anyName "property_identifier" <|> privateName <|> text <|> number <|> g.computedName)

/-- The characters after which a word was a name and no modifier. -/
def afterName : List Char := "(=:;,?!<\x7d".toList

/-- Reads a modifier: a word with the name of a member after it. -/
def modifier (phrase : Parse Phrase) : Parse Phrase := do
  let found ← phrase
  check fun cs => cs.head?.any fun c => !afterName.contains c
  return found

/-- Reads who may use a member. -/
def accessibility : Parse Phrase :=
  modifier (node "accessibility_modifier" (oneOfWords ["public", "private", "protected"]))

/-- Reads the word for a member that replaces an inherited one. -/
def overriding : Parse Phrase := modifier (node "override_modifier" (word "override"))

/-- Reads one modifier word. -/
def modifierWord (text : String) : Parse Phrase := modifier (word text)

/-! ## Decorators -/

/-- Reads the member accesses and the call that may follow a name. -/
def chainAfter (g : Grammar) : Nat → Phrase → Parse Phrase
  | 0, left => pure left
  | fuel + 1, left =>
    (do
      let more ← row [operator ".", field "property" (anyName "property_identifier")]
      chainAfter g fuel (wrap "member_expression" (inField "object" left) more))
    <|> (do
      let more ← row [optional (field "type_arguments" g.typeArguments), field "arguments" g.arguments]
      return wrap "call_expression" (inField "function" left) more)
    <|> pure left

/-- Reads a decorator. -/
def decorator : Parse Phrase :=
  let named : Parse Phrase := do
    let left ← identifier
    chainAfter g ((← get).rest.length) left
  field "decorator" (node "decorator" (row [operator "@", named <|> g.parenthesized]))

end Grammar

end Lintel.TypeScript
