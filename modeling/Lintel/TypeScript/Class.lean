import Lintel.TypeScript.Type

/-!
# Classes

What classes inherit from, and their members.
-/

namespace Lintel.TypeScript.Grammar

variable (g : Grammar)

/-! ## Inheritance -/

/-- Reads what a class extends. -/
def extendsClause : Parse Phrase :=
  node "extends_clause" (row
    [word "extends",
     separated comma (row
       [field "value" g.unary, optional (field "type_arguments" g.typeArguments)])])

/-- Reads what a class implements. -/
def implementsClause : Parse Phrase :=
  node "implements_clause" (row [word "implements", separated comma g.type])

/-- Reads what a class inherits from. -/
def heritage : Parse Phrase :=
  node "class_heritage"
    (row [g.extendsClause, optional g.implementsClause] <|> g.implementsClause)

/-! ## Members -/

/-- Reads a method with its body. -/
def method : Parse Phrase :=
  node "method_definition" (row
    [optional accessibility, optional (modifierWord "static"), optional overriding,
     optional (modifierWord "readonly"), optional (modifierWord "async"),
     optional (modifierWord "get" <|> modifierWord "set" <|> operator "*"),
     g.memberName, optional questionMark, g.signature, field "body" g.block])

/-- Reads a method that a subclass has to define. -/
def abstractMethod : Parse Phrase :=
  node "abstract_method_signature" (row
    [optional accessibility, modifierWord "abstract", optional overriding,
     optional (modifierWord "async"),
     optional (modifierWord "get" <|> modifierWord "set" <|> operator "*"),
     g.memberName, optional questionMark, g.signature])

/-- The modifiers of a field besides its accessibility. -/
def fieldModifiers : Parse Phrase :=
  many (modifierWord "static" <|> overriding <|> modifierWord "readonly" <|> modifierWord "abstract"
    <|> modifierWord "accessor" <|> modifierWord "declare" <|> accessibility)

/-- Reads a field. -/
def classField : Parse Phrase :=
  node "public_field_definition" (row
    [many g.decorator, fieldModifiers, g.memberName, optional (questionMark <|> operator "!"),
     optional g.typeAnnotation, optional g.initializer])

/-- Reads statements that run once for a class. -/
def staticBlock : Parse Phrase :=
  node "class_static_block" (row [word "static", field "body" g.block])

/-- Reads a member of a class. -/
def classMember : Parse Phrase :=
  let ending := operator "," <|> semicolon
  row [g.staticBlock]
    <|> row [many g.decorator, g.method]
    <|> row [g.abstractMethod, ending]
    <|> row [many g.decorator, g.methodSignature, ending]
    <|> row [g.indexSignature, ending]
    <|> row [g.classField, ending]

/-- Reads the body of a class. -/
def classBody : Parse Phrase :=
  field "body" (node "class_body" (row
    [operator "\x7b", many (operator ";" <|> g.classMember), operator "\x7d"]))

/-- Reads a class from its name on. -/
def classRest : Parse Phrase :=
  row [optional g.typeParameters, optional g.heritage, g.classBody]

/-- Reads the name of a class, which is no word that may follow it. -/
def className : Parse Phrase := do
  check fun cs => !isWord "extends" cs && !isWord "implements" cs
  field "name" (nameOf "type_identifier")

/-- Reads a class inside an expression. -/
def classExpression : Parse Phrase :=
  node "class" (row [many g.decorator, word "class", optional className, g.classRest])

end Lintel.TypeScript.Grammar
