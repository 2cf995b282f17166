import Lintel.Rule.DomainModel

/-!
# Rules of use cases

A use case has no method besides `execute` (`noPrivateMethods`) and makes entities with their factory
method (`entityFromPattern`).
-/

namespace Lintel.Rule

open Syntax (Cursor Node NodeKind Source kindOf)

/-- The files of use cases. -/
def useCaseFiles : Option PathPattern := pathPattern "-use-case\\.ts$"

/-! ## Methods -/

/-- The methods that a use case may have. -/
def allowedMethods : List String := ["execute", "constructor"]

/-- What is said of another method. -/
def privateMethodMessage (className methodName : String) : String :=
  s!"UseCaseImpl class \"{className}\" has method \"{methodName}\" besides execute.\n"
    ++ "- Write the whole flow inside execute.\n"
    ++ "- Move complex logic into domain model methods.\n"
    ++ "- Private helper methods are not allowed."

/-- The report about a method of a use case, if it is not an allowed one. -/
def methodFinding? (source : Source) (className : String) (member : Node) : Option Finding :=
  let name := source.fieldText member "name"
  if allowedMethods.contains name then none
  else some ⟨member, privateMethodMessage className name, none⟩

/-- Reports the methods of a use case that are not allowed. -/
def visitUseCase (source : Source) (c : Cursor) : Visit :=
  let className := source.fieldText c.node "name"
  match c.node.kind, c.node.child? "body" with
  | .classLike, some body =>
    if Text.endsWith "UseCaseImpl" className then
      .reports ((body.childrenOf .method).filterMap (methodFinding? source className))
    else .done
  | _, _ => .done

/-- Use cases define no method other than `execute`. -/
def noPrivateMethods : Rule where
  id := "server/use-case/no-private-methods"
  pattern := useCaseFiles
  visitor := visitUseCase
  metadata :=
    { what := "UseCaseImpl classes define no method other than execute"
      why := "The whole flow of a use case should read top to bottom inside execute"
      failure :=
        "Reports every method of a *UseCaseImpl class other than execute and the constructor" }
  policyPath := "server/use-case/no-private-methods.py"

/-! ## Entities -/

/-- Classes that are no entities although their names look like it. -/
def excludedClasses : List String :=
  ["Date", "Error", "Map", "Set", "Promise", "Array", "URL", "RegExp"]

/-- The name is in pascal case; a line feed may follow. -/
def isPascalCase (name : String) : Bool :=
  match name.toList with
  | [] => false
  | c :: cs =>
    let body := if cs.getLast? == some '\n' then cs.dropLast else cs
    c.isUpper && body.all Char.isAlphanum

/-- The class is an entity: one of the known ones, or, if none is known, one with such a name. -/
def isEntity (known : List String) (className : String) : Bool :=
  if known.isEmpty then isPascalCase className && !excludedClasses.contains className
  else known.contains className

/-- What is said of an entity that is constructed. -/
def constructionMessage (className : String) : String :=
  s!"new {className}() used to create an entity.\n"
    ++ s!"- Bad: const entity = new {className}(\x7b ... \x7d);\n"
    ++ s!"- Good: const entity = {className}.from(\x7b ... \x7d);"

/-- Files in which entities may be constructed: tests, dummies and interfaces. -/
def mayConstruct (path : String) : Bool :=
  Text.holds ".test." path || Text.holds ".dummy." path || Text.endsWith "interfaces.ts" path

/-- Reports the construction of an entity. -/
def visitConstruction (source : Source) (c : Cursor) : Visit :=
  let constructor := c.node.child? "constructor"
  if c.node.kind == .construction && !mayConstruct source.path
      && kindOf constructor == .identifier then
    let className := source.textOf? constructor
    .withNames fun known =>
      if isEntity (known.getD []) className then .at c.node (constructionMessage className)
      else .done
  else .done

/-- Use cases make entities with their factory method. -/
def entityFromPattern : Rule where
  id := "server/use-case/entity-from-pattern"
  pattern := useCaseFiles
  visitor := visitConstruction
  metadata :=
    { what := "Use cases create entities with Entity.from() instead of new Entity()"
      why := "A single factory method keeps construction in one place and survives constructor changes"
      failure := "Reports new X() where X is a domain entity "
        ++ "(or any PascalCase class when no entity is indexed)" }
  policyPath := "server/use-case/entity-from-pattern.py"

end Lintel.Rule
