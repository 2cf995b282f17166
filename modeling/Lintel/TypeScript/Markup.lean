import Lintel.TypeScript.Grammar

/-!
# Markup

Elements with their attributes and what stands between their tags.
-/

namespace Lintel.TypeScript.Grammar

variable (g : Grammar)

/-- The character may stand inside a name of markup. -/
def isMarkupNameChar (c : Char) : Bool := isNameChar c || c == '-'

/-- Reads a name of markup. -/
def markupName (type : String) : Parse Phrase :=
  leaf type true fun cs =>
    if (nameAt cs).isEmpty then 0 else (cs.takeWhile isMarkupNameChar).length

/-- Reads the members after the name of an element. -/
def membersFrom : Nat → Phrase → Parse Phrase
  | 0, left => pure left
  | fuel + 1, left =>
    (do
      let more ← row [sign ".", field "property" (anyName "property_identifier")]
      membersFrom fuel (wrap "member_expression" (inField "object" left) more))
    <|> pure left

/-- Reads the name of an element. -/
def elementName : Parse Phrase := do
  let namespaced := node "jsx_namespace_name" (row
    [markupName "identifier", sign ":", markupName "identifier"])
  let plain : Parse Phrase := do
    let left ← markupName "identifier"
    membersFrom ((← get).rest.length) left
  field "name" (namespaced <|> plain)

/-- Reads an expression between braces; it may be missing. -/
def embedded : Parse Phrase :=
  let inside := g.expression <|> node "spread_element" (row [operator "...", g.assignment]) <|> comments
  node "jsx_expression" (row [operator "\x7b", inside, operator "\x7d"])

/-- Reads an attribute. -/
def markupAttribute : Parse Phrase :=
  let name := node "jsx_namespace_name" (row
    [markupName "property_identifier", sign ":", markupName "property_identifier"])
      <|> markupName "property_identifier"
  let value := quotedText false '\'' <|> quotedText false '"' <|> g.embedded <|> g.element
  field "attribute" (node "jsx_attribute" (row [name, optional (row [sign "=", value])])
    <|> g.embedded)

/-- Where text between tags ends. -/
def endsMarkupText (c : Char) : Bool := "<>\x7b\x7d&".toList.contains c

/-- Text between tags counts unless it is blank up to its line ends and starts of lines; `atLineEnd`
says whether only blanks have come since a line end. -/
def hasMarkupText (atLineEnd : Bool) : List Char → Bool
  | [] => false
  | c :: cs =>
    if c == '\n' then hasMarkupText true cs
    else if atLineEnd && Text.isBlank c then hasMarkupText true cs
    else true

/-- Reads text between tags. -/
def markupText : Parse Phrase := do
  let cs := (← get).rest.takeWhile fun c => !endsMarkupText c
  if hasMarkupText false cs then raw "jsx_text" true cs.length else failure

/-- Reads a character that is written by its name. -/
def characterReference : Parse Phrase := do
  match (← get).rest with
  | '&' :: cs =>
    let name := cs.takeWhile fun c => c.isAlphanum || c == '#'
    if name.isEmpty || cs[name.length]? != some ';' then failure
    raw "html_character_reference" true (name.length + 2)
  | _ => failure

/-- Reads the tag that ends an element. -/
def closingTag : Parse Phrase :=
  field "close_tag" (node "jsx_closing_element" (row [sign "</", optional elementName, sign ">"]))

/-- Reads what stands between two tags. -/
def betweenTags : Parse Phrase :=
  many (markupText <|> characterReference <|> g.embedded
    <|> (do check (fun cs => !"</".toList.isPrefixOf cs); g.element))

/-- Reads the tag that starts an element. -/
def openingTag : Parse Phrase :=
  field "open_tag" (node "jsx_opening_element" (row
    [sign "<", optional (row [elementName, optional (field "type_arguments" g.typeArguments)]),
     many g.markupAttribute, sign ">"]))

/-- Reads an element. -/
def anyElement : Parse Phrase :=
  node "jsx_self_closing_element" (row
      [sign "<", elementName, optional (field "type_arguments" g.typeArguments), many g.markupAttribute,
       sign "/>"])
    <|> node "jsx_element" (row [g.openingTag, g.betweenTags, closingTag])

end Lintel.TypeScript.Grammar
