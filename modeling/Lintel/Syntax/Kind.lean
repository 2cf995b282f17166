import Lintel.Syntax.Tree

/-!
# Kinds of nodes

Rules look at the kind of a node (`Node.kind`), which brings together grammatical types that mean the
same to them. A token without a name is of no kind of interest, whatever its type.
-/

namespace Lintel.Syntax

/-- The kinds that rules tell apart. -/
inductive NodeKind where
  | program
  | importing
  | importSpecifier
  | exporting
  | classLike
  | method
  | function
  | arrowFunction
  | call
  | construction
  | memberAccess
  | identifier
  | string
  | block
  | trying
  | catching
  | throwing
  | interface
  | typeAlias
  | variableDeclaration
  | propertySignature
  | comment
  | other
  deriving DecidableEq, Repr

namespace NodeKind

/-- The word for a kind. -/
def name : NodeKind → String
  | program => "program"
  | importing => "import"
  | importSpecifier => "import_specifier"
  | exporting => "export"
  | classLike => "class"
  | method => "method"
  | function => "function"
  | arrowFunction => "arrow_function"
  | call => "call"
  | construction => "new"
  | memberAccess => "member_access"
  | identifier => "identifier"
  | string => "string"
  | block => "block"
  | trying => "try"
  | catching => "catch"
  | throwing => "throw"
  | interface => "interface"
  | typeAlias => "type_alias"
  | variableDeclaration => "variable_declaration"
  | propertySignature => "property_signature"
  | comment => "comment"
  | other => "other"

/-- The kind of a grammatical type. -/
def ofType : String → NodeKind
  | "program" => program
  | "import_statement" => importing
  | "import_specifier" => importSpecifier
  | "export_statement" => exporting
  | "class_declaration" | "abstract_class_declaration" | "class" => classLike
  | "method_definition" | "abstract_method_signature" => method
  | "function_declaration" | "generator_function_declaration" | "function_expression" => function
  | "arrow_function" => arrowFunction
  | "call_expression" => call
  | "new_expression" => construction
  | "member_expression" => memberAccess
  | "identifier" | "type_identifier" | "property_identifier" => identifier
  | "string" | "template_string" => string
  | "statement_block" => block
  | "try_statement" => trying
  | "catch_clause" => catching
  | "throw_statement" => throwing
  | "interface_declaration" => interface
  | "type_alias_declaration" => typeAlias
  | "lexical_declaration" | "variable_declaration" => variableDeclaration
  | "property_signature" => propertySignature
  | "comment" => comment
  | _ => other

end NodeKind

/-- The kind of a node. -/
def Node.kind (node : Node) : NodeKind := if node.named then .ofType node.type else .other

/-- The kind of a node that may be missing. -/
def kindOf (node : Option Node) : NodeKind := (node.map Node.kind).getD .other

/-- The children of a kind. -/
def Node.childrenOf (node : Node) (kind : NodeKind) : List Node :=
  node.children.filter (·.kind == kind)

/-- The nearest node of a kind above. -/
def Cursor.enclosing? (c : Cursor) (kind : NodeKind) : Option Node :=
  c.above.find? (·.kind == kind)

end Lintel.Syntax
