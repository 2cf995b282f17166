import Lintel.TypeScript.Binding
import Lintel.TypeScript.Class

/-!
# Expressions

An operand is a primary expression with what is done to it; operators join operands by their levels
(`binaryFrom`); above them are conditions, assignments and functions.
-/

namespace Lintel.TypeScript.Grammar

variable (g : Grammar)

/-! ## Primary expressions -/

/-- Reads a row of elements; places may be empty. -/
def arrayLiteral : Parse Phrase :=
  node "array" (row [operator "[", many (comma <|> g.spread <|> g.assignment), operator "]"])

/-- Reads a member of an object. -/
def objectMember : Parse Phrase :=
  g.spread
    <|> g.method
    <|> node "pair" (row [g.keyName, operator ":", field "value" g.assignment])
    <|> (do
      let left ← nameOf "shorthand_property_identifier"
      (do
        let more ← row [operator "=", field "right" g.assignment]
        return wrap "object_assignment_pattern" (inField "left" left) more)
      <|> pure left)

/-- Reads an object. -/
def objectLiteral : Parse Phrase := node "object" (list "\x7b" "\x7d" g.objectMember)

/-- Reads the word that makes a function asynchronous. -/
def asyncWord : Parse Phrase := do
  let found ← word "async"
  sameLine
  return found

/-- Reads a function inside an expression. -/
def functionExpression : Parse Phrase :=
  let name := optional (field "name" identifier)
  let rest := row [name, g.signature, field "body" g.block]
  node "generator_function" (row [optional asyncWord, word "function", operator "*", rest])
    <|> node "function_expression" (row [optional asyncWord, word "function", rest])

/-- Reads a template. -/
def templateText : Parse Phrase := template "template_string" "template_substitution" g.expression

/-- Reads a value that a word stands for. -/
def wordValue : Parse Phrase :=
  ["this", "super", "true", "false", "null", "undefined"].foldr
    (fun w p => namedWord w w <|> p) failure

/-- Reads a property of the construct that a word starts. -/
def metaProperty (start property : String) : Parse Phrase :=
  node "meta_property" (row [word start, operator ".", word property])

/-- Reads a primary expression. -/
def primary : Parse Phrase :=
  text <|> g.templateText <|> number <|> g.parenthesized <|> g.arrayLiteral <|> g.objectLiteral
    <|> g.functionExpression <|> g.classExpression <|> wordValue
    <|> metaProperty "import" "meta" <|> namedWord "import" "import"
    <|> (if g.markup then g.element else failure)
    <|> identifier <|> regex <|> privateName

/-! ## Members, calls and constructions -/

/-- Reads the name of a member. -/
def propertyName : Parse Phrase := field "property" (anyName "property_identifier" <|> privateName)

/-- Reads the mark that stops at a missing object. -/
def optionalMark : Parse Phrase :=
  field "optional_chain" (node "optional_chain" (operator "?."))

/-- Reads an index between brackets. -/
def bracketIndex : Parse Phrase := row [operator "[", field "index" g.expression, operator "]"]

/-- Reads the arguments of a call, perhaps with arguments of types before them. -/
def callArguments : Parse Phrase :=
  row [optional (field "type_arguments" g.typeArguments), field "arguments" g.arguments]

/-- The characters that an expression cannot go on with. -/
def afterExpression : List Char := ";,)]:\x7d".toList

/-- Reads arguments of types after which the expression ends. -/
def lastTypeArguments : Parse Phrase := do
  let found ← field "type_arguments" g.typeArguments
  check fun cs => cs.head?.all afterExpression.contains
  return found

/-- Reads the sign that a value is not missing. -/
def notMissing : Parse Phrase := do
  sameLine
  operator "!"

/-- Reads one thing that is done to an operand without calling it. -/
def accessAfter (left : Phrase) : Parse Phrase :=
  wrap "member_expression" (inField "object" left) <$> row [operator ".", propertyName]
    <|> wrap "subscript_expression" (inField "object" left) <$> g.bracketIndex
    <|> wrap "non_null_expression" left <$> notMissing

/-- Reads one thing that is done to an operand. -/
def stepAfter (left : Phrase) : Parse Phrase :=
  let tagged := row
    [optional (field "type_arguments" g.typeArguments), field "arguments" g.templateText]
  g.accessAfter left
    <|> wrap "call_expression" (inField "function" left) <$> g.callArguments
    <|> wrap "call_expression" (inField "function" left) <$> tagged
    <|> wrap "call_expression" (inField "function" left) <$> row [operator "?.", g.callArguments]
    <|> wrap "subscript_expression" (inField "object" left) <$> row [optionalMark, g.bracketIndex]
    <|> wrap "member_expression" (inField "object" left) <$> row [optionalMark, propertyName]
    <|> wrap "instantiation_expression" left <$> g.lastTypeArguments

/-- Reads what is done to an operand, one step after another. -/
def stepsFrom (step : Phrase → Parse Phrase) : Nat → Phrase → Parse Phrase
  | 0, left => pure left
  | fuel + 1, left =>
    (do
      let more ← step left
      stepsFrom step fuel more)
    <|> pure left

/-- Reads what `new` constructs: a primary expression with accesses. -/
def anyConstructed : Parse Phrase := do
  let left ← node "new_expression" (row [word "new", field "constructor" g.constructed,
      optional (row [optional (field "type_arguments" g.typeArguments), field "arguments" g.arguments])])
    <|> g.primary
  stepsFrom g.accessAfter ((← get).rest.length) left

/-- Reads a construction. -/
def construction : Parse Phrase :=
  metaProperty "new" "target"
    <|> node "new_expression" (row
      [word "new", field "constructor" g.constructed, optional (g.callArguments <|> g.lastTypeArguments)])

/-- Reads an operand with everything that is done to it. -/
def steps : Parse Phrase := do
  let left ← g.construction <|> g.primary
  stepsFrom g.stepAfter ((← get).rest.length) left

/-- Reads an operand that may be counted up or down after its use. -/
def updated : Parse Phrase := do
  let left ← g.steps
  (do
    sameLine
    let sign ← field "operator" (oneOfOperators ["++", "--"])
    return wrap "update_expression" (inField "argument" left) sign)
  <|> pure left

/-- Reads any operand. -/
def anyUnary : Parse Phrase :=
  let words := field "operator" (oneOfWords ["typeof", "void", "delete"])
  let signs := field "operator" (oneOfOperators ["!", "~", "-", "+"])
  node "unary_expression" (row [words <|> signs, field "argument" g.unary])
    <|> node "update_expression" (row
      [field "operator" (oneOfOperators ["++", "--"]), field "argument" g.unary])
    <|> node "await_expression" (row [word "await", g.unary])
    <|> (if g.markup then failure else node "type_assertion" (row [g.typeArguments, g.unary]))
    <|> g.updated

/-! ## Operators -/

/-- The operators between two operands, by level from the loosest to the tightest. -/
def binaryLevels : List (List String) :=
  [["??"], ["||"], ["&&"], ["|"], ["^"], ["&"], ["==", "!=", "===", "!=="],
   ["<", ">", "<=", ">=", "instanceof", "in"], ["<<", ">>", ">>>"], ["+", "-"], ["*", "/", "%"],
   ["**"]]

/-- The level of comparisons, at which types are put to operands too. -/
def comparisonLevel : Nat := 7

/-- The word or operator at the front. -/
def signAt (cs : List Char) : String :=
  let name := nameAt cs
  String.ofList (if name.isEmpty then operatorAt cs else name)

/-- The level of the operator at the front. -/
def levelAt? (cs : List Char) : Option Nat :=
  binaryLevels.findIdx? fun signs => signs.contains (signAt cs)

/-- Reads an operator between two operands. -/
def binarySign : Parse Phrase := do
  let sign := signAt (← upcoming)
  field "operator" (word sign <|> operator sign)

/-- Reads the operators from a level on, with their operands. -/
def binaryFrom (g : Grammar) : Nat → Nat → Phrase → Parse Phrase
  | 0, _, left => pure left
  | fuel + 1, level, left =>
    (do
      let some found := levelAt? (← upcoming) | failure
      if found < level then failure
      let sign ← binarySign
      let right ← g.unary
      let above := if found + 1 == binaryLevels.length then found else found + 1
      let right ← binaryFrom g fuel above right
      binaryFrom g fuel level
        (wrap "binary_expression" (inField "left" left) (sign ++ inField "right" right)))
    <|> (do
      if comparisonLevel < level then failure
      sameLine
      let more ← row [word "as", word "const" <|> g.type]
      binaryFrom g fuel level (wrap "as_expression" left more))
    <|> (do
      if comparisonLevel < level then failure
      sameLine
      let more ← row [word "satisfies", g.type]
      binaryFrom g fuel level (wrap "satisfies_expression" left more))
    <|> pure left

/-- Reads operands with operators between them. -/
def binary : Parse Phrase := do
  let left ← g.unary
  binaryFrom g ((← get).rest.length) 0 left

/-- Reads a choice between two values. -/
def conditional : Parse Phrase := do
  let left ← g.binary
  (do
    let more ← row
      [operator "?", field "consequence" g.assignment, operator ":", field "alternative" g.assignment]
    return wrap "ternary_expression" (inField "condition" left) more)
  <|> pure left

/-! ## Functions and assignments -/

/-- Reads an arrow function. -/
def arrowFunction : Parse Phrase :=
  let arrow : Parse Phrase := do
    sameLine
    operator "=>"
  let body := field "body" (g.block <|> g.assignment)
  let rest := row [field "parameter" identifier <|> g.signature, arrow, body]
  node "arrow_function" (row [asyncWord, rest]) <|> node "arrow_function" rest

/-- The operators that change what they assign to. -/
def changingOperators : List String :=
  ["+=", "-=", "*=", "/=", "%=", "^=", "&=", "|=", ">>=", ">>>=", "<<=", "**=", "&&=", "||=", "??="]

/-- Reads an expression that hands a value out. -/
def yielding : Parse Phrase :=
  let value : Parse Phrase := do
    sameLine
    g.assignment
  node "yield_expression" (row
    [word "yield", row [operator "*", g.assignment] <|> optional value])

/-- Reads an assignment to a pattern. -/
def patternAssignment : Parse Phrase :=
  node "assignment_expression" (row
    [field "left" g.patternBinding, operator "=", field "right" g.assignment])

/-- Reads a choice, or an assignment to it. -/
def assigned : Parse Phrase := do
  let left ← g.conditional
  (do
    let more ← row [operator "=", field "right" g.assignment]
    return wrap "assignment_expression" (inField "left" left) more)
  <|> (do
    let more ← row [field "operator" (oneOfOperators changingOperators), field "right" g.assignment]
    return wrap "augmented_assignment_expression" (inField "left" left) more)
  <|> pure left

/-- Reads an arrow function; where its body is a block, operators may follow. -/
def arrowOperand : Parse Phrase := do
  let left ← g.arrowFunction
  binaryFrom g ((← get).rest.length) 0 left

/-- Reads any expression without a comma. -/
def anyAssignment : Parse Phrase :=
  g.arrowOperand <|> g.yielding <|> g.patternAssignment <|> g.assigned

/-- Reads any expression. -/
def anyExpression : Parse Phrase := do
  let first ← g.assignment
  let more ← many (row [comma, g.assignment])
  if more.isEmpty then return first else return wrap "sequence_expression" first more

end Lintel.TypeScript.Grammar
