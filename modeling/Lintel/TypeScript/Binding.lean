import Lintel.TypeScript.Grammar

/-!
# Bindings

What a declaration or a parameter binds: a name, or a pattern that takes a value apart.
-/

namespace Lintel.TypeScript.Grammar

variable (g : Grammar)

/-- Reads the binding of what is left. -/
def restBinding : Parse Phrase := node "rest_pattern" (row [operator "...", g.binding])

/-- Reads a binding that may have a value of its own. -/
def bindingWithDefault : Parse Phrase := do
  let left ← g.binding
  (do
    let more ← row [operator "=", field "right" g.assignment]
    return wrap "assignment_pattern" (inField "left" left) more)
  <|> pure left

/-- Reads a name that stands for a member and its binding. -/
def shorthandBinding : Parse Phrase := do
  let left ← nameOf "shorthand_property_identifier_pattern"
  (do
    let more ← row [operator "=", field "right" g.assignment]
    return wrap "object_assignment_pattern" (inField "left" left) more)
  <|> pure left

/-- Reads what a pattern does with one member. -/
def memberBinding : Parse Phrase :=
  g.restBinding
    <|> node "pair_pattern" (row [g.keyName, operator ":", field "value" g.bindingWithDefault])
    <|> g.shorthandBinding

/-- Reads a pattern for an object. -/
def objectBinding : Parse Phrase := node "object_pattern" (list "\x7b" "\x7d" g.memberBinding)

/-- Reads a pattern for a row. -/
def arrayBinding : Parse Phrase :=
  node "array_pattern" (row
    [operator "[", many (comma <|> g.restBinding <|> g.bindingWithDefault), operator "]"])

/-- Reads a pattern. -/
def patternBinding : Parse Phrase := g.objectBinding <|> g.arrayBinding

/-- Reads any binding. -/
def anyBinding : Parse Phrase := g.restBinding <|> identifier <|> g.patternBinding

end Lintel.TypeScript.Grammar
