import Lintel.TypeScript.Expression

/-!
# Statements

Declarations, imports and exports, and the statements that steer what is done.
-/

namespace Lintel.TypeScript.Grammar

variable (g : Grammar)

/-! ## Variables, functions and classes -/

/-- Reads one variable. -/
def declarator : Parse Phrase :=
  node "variable_declarator" (row
    [field "name" (identifier <|> g.patternBinding), optional (operator "!"),
     optional g.typeAnnotation, optional g.initializer])

/-- Reads the word that declares variables of a block. -/
def blockVariableWord : Parse Phrase := do
  let kind ← field "kind" (oneOfWords ["let", "const"])
  check fun cs => cs.head?.any fun c => isNameStart c || c == '[' || c == '\x7b'
  return kind

/-- Reads variables of a block. -/
def lexicalDeclaration : Parse Phrase :=
  node "lexical_declaration" (row [blockVariableWord, separated comma g.declarator, semicolon])

/-- Reads variables of a function. -/
def variableDeclaration : Parse Phrase :=
  node "variable_declaration" (row [word "var", separated comma g.declarator, semicolon])

/-- Reads a function. -/
def functionDeclaration : Parse Phrase :=
  let front := row [optional asyncWord, word "function"]
  let name := field "name" identifier
  let body := field "body" g.block
  node "generator_function_declaration" (row [front, operator "*", name, g.signature, body])
    <|> node "function_declaration" (row [front, name, g.signature, body])
    <|> node "function_signature" (row [front, name, g.signature, semicolon])

/-- Reads a class. -/
def classDeclaration : Parse Phrase :=
  let rest := row [word "class", className, g.classRest]
  node "abstract_class_declaration" (row [many g.decorator, word "abstract", rest])
    <|> node "class_declaration" (row [many g.decorator, rest])

/-- Reads the name of a declared type. -/
def declaredName : Parse Phrase := field "name" (anyName "type_identifier")

/-- Reads an interface. -/
def interfaceDeclaration : Parse Phrase :=
  let extended := node "extends_type_clause" (row
    [word "extends", separated comma (field "type" g.type)])
  node "interface_declaration" (row
    [word "interface", declaredName, optional g.typeParameters, optional extended,
     field "body" (g.typeBody "interface_body")])

/-- Reads a name for a type. -/
def typeAlias : Parse Phrase :=
  node "type_alias_declaration" (row
    [word "type", declaredName, optional g.typeParameters, operator "=", field "value" g.type,
     semicolon])

/-- Reads an enumeration. -/
def enumDeclaration : Parse Phrase :=
  let member := node "enum_assignment" (row [g.memberName, g.initializer]) <|> g.memberName
  node "enum_declaration" (row
    [optional (word "const"), word "enum", field "name" identifier,
     field "body" (node "enum_body" (list "\x7b" "\x7d" member))])

/-- Reads the further parts of a name with points. -/
def nestedNameFrom : Nat → Phrase → Parse Phrase
  | 0, left => pure left
  | fuel + 1, left =>
    (do
      let more ← row [operator ".", field "property" (anyName "property_identifier")]
      -- Only the whole name is a nested one; its front is an access.
      let next ← upcoming
      let type := if isOperator "." next then "member_expression" else "nested_identifier"
      nestedNameFrom fuel (wrap type (inField "object" left) more))
    <|> pure left

/-- Reads a name with points. -/
def nestedName : Parse Phrase := do
  let left ← identifier
  nestedNameFrom ((← get).rest.length) left

/-- Reads a namespace. -/
def internalModule : Parse Phrase :=
  node "internal_module" (row [word "namespace", field "name" nestedName, field "body" g.block])

/-- Reads a module. -/
def moduleDeclaration : Parse Phrase := do
  let start ← node "module" (row
    [word "module", field "name" (text <|> nestedName), optional (field "body" g.block)])
  return start

/-- Reads another name for something in a namespace. -/
def importAlias : Parse Phrase :=
  node "import_alias" (row
    [word "import", identifier, operator "=", notAhead (word "require") *> nestedName, semicolon])

/-- Reads a declaration that may be exported. -/
def plainDeclaration : Parse Phrase :=
  g.functionDeclaration <|> g.classDeclaration <|> g.enumDeclaration <|> g.lexicalDeclaration
    <|> g.variableDeclaration <|> g.interfaceDeclaration <|> g.typeAlias <|> importAlias
    <|> g.internalModule <|> g.moduleDeclaration

/-- Reads a declaration of what is defined elsewhere. -/
def ambientDeclaration : Parse Phrase :=
  node "ambient_declaration" (row
    [word "declare", g.plainDeclaration <|> row [word "global", g.block]])

/-- Reads any declaration. -/
def declaration : Parse Phrase := g.ambientDeclaration <|> g.plainDeclaration

/-! ## Imports and exports -/

/-- Reads the module that something comes from. -/
def origin : Parse Phrase := row [word "from", field "source" text]

/-- Reads what is said of the module that something comes from. -/
def importAttribute : Parse Phrase :=
  node "import_attribute" (row [oneOfWords ["with", "assert"], g.objectLiteral])

/-- Reads the name of something exported. -/
def exportName : Parse Phrase := anyName "identifier" <|> text

/-- Reads one name of a list, perhaps with another name that it goes by. -/
def specifier (type : String) : Parse Phrase :=
  let names := row [field "name" exportName,
    optional (row [word "as", field "alias" exportName])]
  let last : Parse Phrase := do
    let found ← names
    check fun cs => cs.head? == some ',' || cs.head? == some '\x7d'
    return found
  node type (last <|> row [oneOfWords ["type", "typeof"], last])

/-- Reads the names that are imported. -/
def namedImports : Parse Phrase :=
  node "named_imports" (list "\x7b" "\x7d" (specifier "import_specifier"))

/-- Reads the import of a whole module. -/
def namespaceImport : Parse Phrase :=
  node "namespace_import" (row [operator "*", word "as", identifier])

/-- Reads what is imported. -/
def importClause : Parse Phrase :=
  let several := namespaceImport <|> namedImports
  node "import_clause" (several <|> row [identifier, optional (row [comma, several])])

/-- Reads the import of a module under a name. -/
def importRequired : Parse Phrase :=
  node "import_require_clause" (row
    [identifier, operator "=", word "require", operator "(", field "source" text, operator ")"])

/-- Reads an import. -/
def importStatement : Parse Phrase :=
  let what := row [importClause, origin] <|> importRequired <|> field "source" text
  let whatKind := row [oneOfWords ["type", "typeof"], what] <|> what
  node "import_statement" (row
    [word "import", whatKind, optional g.importAttribute, semicolon])

/-- Reads the names that are exported. -/
def exportClause : Parse Phrase :=
  node "export_clause" (list "\x7b" "\x7d" (specifier "export_specifier"))

/-- Reads a whole module that is exported under a name. -/
def namespaceExport : Parse Phrase :=
  node "namespace_export" (row [operator "*", word "as", exportName])

/-- Reads what is exported by default. -/
def defaultExport : Parse Phrase :=
  row [word "default", field "declaration" g.declaration]
    <|> row [word "default", field "value" g.assignment, semicolon]

/-- Reads an export. -/
def exportStatement : Parse Phrase :=
  let whole := row [namespaceExport <|> operator "*", origin, optional g.importAttribute]
  let names := row [exportClause, optional (row [origin, optional g.importAttribute])]
  let kind := optional (do
    let found ← word "type"
    check fun cs => cs.head? == some '\x7b' || cs.head? == some '*'
    return found)
  node "export_statement" (row
    [many g.decorator, word "export",
     g.defaultExport
       <|> row [kind, whole <|> names, semicolon]
       <|> row [operator "=", g.expression, semicolon]
       <|> row [word "as", word "namespace", identifier, semicolon]
       <|> field "declaration" g.declaration])

/-! ## Steering -/

/-- Reads a choice between statements. -/
def ifStatement : Parse Phrase :=
  let other := field "alternative" (node "else_clause" (row [word "else", g.statement]))
  node "if_statement" (row
    [word "if", field "condition" g.parenthesized, field "consequence" g.statement, optional other])

/-- Reads a loop with a start, a condition and a step. -/
def forStatement : Parse Phrase :=
  let emptyPart := node "empty_statement" (operator ";")
  let start := g.lexicalDeclaration <|> g.variableDeclaration
    <|> node "expression_statement" (row [g.expression, operator ";"]) <|> emptyPart
  let condition := row [field "condition" g.expression, operator ";"]
    <|> field "condition" emptyPart
  node "for_statement" (row
    [word "for", operator "(", field "initializer" start, condition,
     optional (field "increment" g.expression), operator ")", field "body" g.statement])

/-- Reads a loop over the elements of something. -/
def forInStatement : Parse Phrase :=
  let kind := field "kind" (oneOfWords ["let", "const", "var"])
  let left := field "left" (g.binding <|> g.steps)
  node "for_in_statement" (row
    [word "for", optional (word "await"), operator "(", row [kind, left] <|> left,
     field "operator" (oneOfWords ["in", "of"]), field "right" g.expression, operator ")",
     field "body" g.statement])

/-- Reads a loop that asks first. -/
def whileStatement : Parse Phrase :=
  node "while_statement" (row
    [word "while", field "condition" g.parenthesized, field "body" g.statement])

/-- Reads a loop that asks last. -/
def doStatement : Parse Phrase :=
  node "do_statement" (row
    [word "do", field "body" g.statement, word "while", field "condition" g.parenthesized,
     optional semicolon])

/-- Reads a choice between many cases. -/
def switchStatement : Parse Phrase :=
  let body := many (field "body" g.statement)
  let case_ := node "switch_case" (row [word "case", field "value" g.expression, operator ":", body])
  let default_ := node "switch_default" (row [word "default", operator ":", body])
  node "switch_statement" (row
    [word "switch", field "value" g.parenthesized,
     field "body" (node "switch_body" (row
       [operator "\x7b", many (case_ <|> default_), operator "\x7d"]))])

/-- Reads statements with what is done when one of them breaks down. -/
def tryStatement : Parse Phrase :=
  let caught := row
    [operator "(", field "parameter" (identifier <|> g.patternBinding), optional g.typeAnnotation,
     operator ")"]
  let handler := field "handler" (node "catch_clause" (row
    [word "catch", optional caught, field "body" g.block]))
  let finalizer := field "finalizer" (node "finally_clause" (row
    [word "finally", field "body" g.block]))
  node "try_statement" (row
    [word "try", field "body" g.block, optional handler, optional finalizer])

/-- Reads a statement of a word and perhaps something on its line. -/
def wordStatement (type start : String) (what : Parse Phrase) : Parse Phrase :=
  let found : Parse Phrase := do
    sameLine
    what
  node type (row [word start, optional found, semicolon])

/-- Reads the name of a statement. -/
def label : Parse Phrase := field "label" (nameOf "statement_identifier")

/-- Reads a statement that leaves or goes on. -/
def jumpStatement : Parse Phrase :=
  wordStatement "return_statement" "return" g.expression
    <|> wordStatement "throw_statement" "throw" g.expression
    <|> wordStatement "break_statement" "break" label
    <|> wordStatement "continue_statement" "continue" label
    <|> wordStatement "debugger_statement" "debugger" failure

/-- Reads a statement that steers. -/
def steeringStatement : Parse Phrase :=
  g.ifStatement <|> g.forInStatement <|> g.forStatement <|> g.whileStatement <|> g.doStatement
    <|> g.switchStatement <|> g.tryStatement <|> g.jumpStatement
    <|> node "with_statement" (row
      [word "with", field "object" g.parenthesized, field "body" g.statement])

/-- Reads a statement with a name. -/
def labeledStatement : Parse Phrase :=
  node "labeled_statement" (row [label, operator ":", field "body" g.statement])

/-- Reads an expression as a statement. -/
def expressionStatement : Parse Phrase :=
  node "expression_statement" (g.internalModule <|> row [g.expression, semicolon])

/-- Reads any statement. -/
def anyStatement : Parse Phrase :=
  g.exportStatement <|> importAlias <|> g.importStatement <|> g.block
    <|> node "empty_statement" (operator ";") <|> g.steeringStatement <|> g.labeledStatement
    <|> (do
      check fun cs => !isWord "namespace" cs
      g.declaration)
    <|> g.expressionStatement

end Lintel.TypeScript.Grammar
