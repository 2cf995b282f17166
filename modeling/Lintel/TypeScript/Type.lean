import Lintel.TypeScript.Grammar

/-!
# Types

Readings of types, of the parameters of functions, and of the members of object types.
-/

namespace Lintel.TypeScript.Grammar

variable (g : Grammar)

/-! ## Parameters -/

/-- Reads the parameter of a type. -/
def typeParameter : Parse Phrase :=
  node "type_parameter" (row
    [optional (word "const"),
     field "name" (anyName "type_identifier"),
     optional (field "constraint" (node "constraint" (row [word "extends", g.type]))),
     optional (field "value" (node "default_type" (row [operator "=", g.type])))])

/-- Reads the parameters of a type. -/
def typeParameters : Parse Phrase :=
  field "type_parameters" (node "type_parameters"
    (row [sign "<", separated comma g.typeParameter, optional comma, sign ">"]))

/-- Reads what a parameter is bound to, with its modifiers. -/
def parameterName : Parse Phrase :=
  row
    [many g.decorator, optional accessibility, optional overriding, optional (modifierWord "readonly"),
     field "pattern" (namedWord "this" "this" <|> g.binding)]

/-- Reads a parameter. -/
def parameter : Parse Phrase :=
  let rest := row [optional g.typeAnnotation, optional g.initializer]
  node "optional_parameter" (row [g.parameterName, operator "?", rest])
    <|> node "required_parameter" (row [g.parameterName, rest])

/-- Reads the parameters of a function. -/
def parameters : Parse Phrase :=
  field "parameters" (node "formal_parameters" (list "(" ")" g.parameter))

/-- Reads a statement about the type of a value. -/
def typePredicate : Parse Phrase :=
  node "type_predicate" (row
    [field "name" (namedWord "this" "this" <|> identifier), word "is", field "type" g.type])

/-- Reads the assertion about the type of a value. -/
def assertion : Parse Phrase :=
  let asserted := g.typePredicate <|> namedWord "this" "this" <|> identifier
  node "asserts" (row [modifierWord "asserts", asserted])

/-- Reads the type of a result. -/
def returnType : Parse Phrase :=
  field "return_type"
    (node "type_predicate_annotation" (row [operator ":", g.typePredicate])
      <|> node "asserts_annotation" (row [operator ":", g.assertion])
      <|> node "type_annotation" (row [operator ":", g.type]))

/-- Reads the parameters and the type of the result of a function. -/
def signature : Parse Phrase :=
  row [optional g.typeParameters, g.parameters, optional g.returnType]

/-! ## Members of object types -/

/-- Reads the sign that a member may be missing. -/
def questionMark : Parse Phrase := operator "?"

/-- Reads a method without a body. -/
def methodSignature : Parse Phrase :=
  node "method_signature" (row
    [optional accessibility, optional (modifierWord "static"), optional overriding,
     optional (modifierWord "readonly"), optional (modifierWord "async"),
     optional (modifierWord "get" <|> modifierWord "set" <|> operator "*"),
     g.memberName, optional questionMark, g.signature])

/-- Reads a property without a value. -/
def propertySignature : Parse Phrase :=
  node "property_signature" (row
    [optional accessibility, optional (modifierWord "static"), optional overriding,
     optional (modifierWord "readonly"), g.memberName, optional questionMark,
     optional g.typeAnnotation])

/-- Reads the names that a mapped type goes through. -/
def mappedNames : Parse Phrase :=
  node "mapped_type_clause" (row
    [field "name" (anyName "type_identifier"), word "in", field "type" g.type,
     optional (row [word "as", field "alias" g.type])])

/-- Reads the members of an object type that are named by a type. -/
def indexSignature : Parse Phrase :=
  let mark := optional (row [optional (field "sign" (operator "+" <|> operator "-")), word "readonly"])
  let names := g.mappedNames
    <|> row [field "name" identifier, operator ":", field "index_type" g.type]
  let missing := node "omitting_type_annotation" (row [operator "-", operator "?", operator ":", g.type])
    <|> node "opting_type_annotation" (row [optional (operator "+"), operator "?", operator ":", g.type])
  node "index_signature" (row
    [mark, operator "[", names, operator "]", field "type" (missing <|> g.typeAnnotation)])

/-- Reads how values of a type are called. -/
def callSignature : Parse Phrase := node "call_signature" g.signature

/-- Reads how values of a type are constructed. -/
def constructSignature : Parse Phrase :=
  node "construct_signature" (row
    [optional (word "abstract"), word "new", optional g.typeParameters, g.parameters,
     optional g.typeAnnotation])

/-- Reads a member of an object type. -/
def typeMember : Parse Phrase :=
  g.callSignature <|> g.constructSignature <|> g.indexSignature <|> g.methodSignature
    <|> g.propertySignature

/-- Reads the members of an object type as a node. -/
def typeBody (type : String) : Parse Phrase :=
  let member := row [g.typeMember, operator "," <|> semicolon]
  node type (row [operator "\x7b", many (operator ";" <|> operator "," <|> member), operator "\x7d"])

/-! ## Types -/

/-- The types that have a word of their own. -/
def predefinedTypes : List String :=
  ["any", "number", "boolean", "string", "symbol", "void", "unknown", "never", "object"]

/-- Reads a type that has a word of its own. -/
def predefinedType : Parse Phrase :=
  node "predefined_type" (oneOfWords predefinedTypes <|> row [word "unique", word "symbol"])

/-- Reads a value that is its own type. -/
def literalType : Parse Phrase :=
  let negative := node "unary_expression" (row
    [field "operator" (operator "-"), field "argument" number])
  node "literal_type"
    (text <|> number <|> negative <|> namedWord "true" "true" <|> namedWord "false" "false"
      <|> namedWord "null" "null" <|> namedWord "undefined" "undefined")

/-- Reads the further names of a type that is found inside something. -/
def nestedFrom : Nat → Phrase → Parse Phrase
  | 0, left => pure left
  | fuel + 1, left =>
    (do
      let more ← row [operator ".", field "name" (anyName "type_identifier")]
      nestedFrom fuel (wrap "nested_type_identifier" (inField "module" left) more))
    <|> pure left

/-- Reads the name of a type. -/
def typeName : Parse Phrase := do
  let nested : Parse Phrase := do
    let left ← nameOf "identifier"
    check (isOperator ".")
    nestedFrom ((← get).rest.length) left
  nested <|> nameOf "type_identifier"

/-- Reads the name of a type with its arguments, if it has any. -/
def namedType : Parse Phrase := do
  let name ← typeName
  (do
    let more ← field "type_arguments" g.typeArguments
    return wrap "generic_type" (inField "name" name) more)
  <|> pure name

/-- Reads a value whose type is meant. -/
def typeQuery : Parse Phrase := do
  let value : Parse Phrase := do
    let left ← namedWord "this" "this" <|> anyName "identifier"
    chainAfter g ((← get).rest.length) left
  node "type_query" (row [word "typeof", value, optional g.typeArguments])

/-- Reads the type of a module, or a type inside it. -/
def importedType : Parse Phrase := do
  let left ← row [namedWord "import" "import"]
  let called := wrap "call_expression" (inField "function" left) (← field "arguments" g.arguments)
  nestedFrom ((← get).rest.length) called

/-- Reads one element of a tuple. -/
def tupleElement : Parse Phrase :=
  let rest := node "rest_pattern" (row [operator "...", identifier])
  node "required_parameter" (row [field "name" (rest <|> identifier), g.typeAnnotation])
    <|> node "optional_parameter" (row [field "name" identifier, operator "?", g.typeAnnotation])
    <|> node "rest_type" (row [operator "...", g.type])
    <|> (do
      let left ← g.type
      (do return wrap "optional_type" left (← operator "?")) <|> pure left)

/-- Reads a type without operators around it. -/
def primaryType : Parse Phrase :=
  node "parenthesized_type" (row [operator "(", g.type, operator ")"])
    <|> predefinedType
    <|> namedWord "this_type" "this"
    <|> literalType
    <|> template "template_literal_type" "template_type" g.type
    <|> g.typeBody "object_type"
    <|> node "tuple_type" (list "[" "]" g.tupleElement)
    <|> g.typeQuery
    <|> g.importedType
    <|> g.namedType

/-- Reads the brackets after a type. -/
def bracketsFrom (g : Grammar) : Nat → Phrase → Parse Phrase
  | 0, left => pure left
  | fuel + 1, left =>
    (do
      sameLine
      let more ← row [operator "[", operator "]"]
      bracketsFrom g fuel (wrap "array_type" left more))
    <|> (do
      sameLine
      let more ← row [operator "[", g.type, operator "]"]
      bracketsFrom g fuel (wrap "lookup_type" left more))
    <|> pure left

/-- Reads a type with the brackets after it. -/
def postfixType : Parse Phrase := do
  let left ← g.primaryType
  bracketsFrom g ((← get).rest.length) left

/-- Reads a type with the words before it; `fuel` bounds their number. -/
def prefixedType (g : Grammar) : Nat → Parse Phrase
  | 0 => g.postfixType
  | fuel + 1 =>
    node "index_type_query" (row [word "keyof", prefixedType g fuel])
      <|> node "readonly_type" (row [word "readonly", prefixedType g fuel])
      <|> node "infer_type" (row
        [word "infer", anyName "type_identifier",
         optional (row [word "extends", prefixedType g fuel,
           notAhead (operator "?") *> pure []])])
      <|> g.postfixType

/-- Reads operands with an operator between them, the first two being taken together first. -/
def joinedFrom (type sign : String) (operand : Parse Phrase) : Nat → Phrase → Parse Phrase
  | 0, left => pure left
  | fuel + 1, left =>
    (do
      let more ← row [operator sign, operand]
      joinedFrom type sign operand fuel (wrap type left more))
    <|> pure left

/-- Reads operands with an operator between them; the first operand may have one before it. -/
def joined (type sign : String) (operand : Parse Phrase) : Parse Phrase := do
  let first ← node type (row [operator sign, operand]) <|> operand
  joinedFrom type sign operand ((← get).rest.length) first

/-- Reads a union of types. -/
def unionType : Parse Phrase :=
  joined "union_type" "|" (joined "intersection_type" "&" (prefixedType g 8))

/-- Reads the type of functions. -/
def functionType : Parse Phrase :=
  node "function_type" (row
    [optional g.typeParameters, g.parameters, operator "=>",
     field "return_type" (g.typePredicate <|> g.assertion <|> g.type)])

/-- Reads the type of constructors. -/
def constructorType : Parse Phrase :=
  node "constructor_type" (row
    [optional (word "abstract"), word "new", optional g.typeParameters, g.parameters, operator "=>",
     field "type" g.type])

/-- Reads a type that depends on another. -/
def conditionalType : Parse Phrase := do
  let left ← g.unionType
  (do
    sameLine
    let more ← row
      [word "extends", field "right" g.unionType, operator "?", field "consequence" g.type,
       operator ":", field "alternative" g.type]
    return wrap "conditional_type" (inField "left" left) more)
  <|> pure left

/-- Reads any type. -/
def anyType : Parse Phrase := g.functionType <|> g.constructorType <|> g.conditionalType

end Lintel.TypeScript.Grammar
