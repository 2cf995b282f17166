import Lintel.Json.Reader
import Lintel.Text.Blank

/-!
# Tags of a doc comment

A rule is described by the tags `@what`, `@why` and `@failure` of its doc comment. The value of a tag
is what follows its first occurrence that blanks and then some text follow: the blanks are passed over,
line breaks included, and the value ends with its line (`tagValue?`).
-/

namespace Lintel.Policy

/-- What a doc comment says of a rule. -/
structure Metadata where
  what : String := ""
  why : String := ""
  failure : String := ""
  deriving DecidableEq, Repr, Inhabited

/-- The first line of the text after some blanks, without blanks at its ends. If only blanks follow,
one of them must be left to be the line. -/
def valueAfter? (cs : List Char) : Option (List Char) :=
  match cs.takeWhile Text.isBlank, cs.dropWhile Text.isBlank with
  | [], _ => none
  | _ :: _, c :: rest => some (Text.trimEnd ((c :: rest).takeWhile (· != '\n')))
  | _ :: blanks, [] => if blanks.any (· != '\n') then some [] else none

/-- The value of the first occurrence of `tag` that has one. -/
def tagValue? (tag : List Char) : List Char → Option (List Char)
  | [] => none
  | c :: cs =>
    match (Json.after? tag (c :: cs)).bind valueAfter? with
    | some value => some value
    | none => tagValue? tag cs

/-- The value of a tag in a text, empty if it has none. -/
def tagText (tag text : String) : String :=
  String.ofList ((tagValue? tag.toList text.toList).getD [])

/-- The one-line description of a rule: the value of its tag `@what`. -/
def description (text : String) : String := tagText "@what" text

/-- The tags of a doc comment. -/
def Metadata.ofDoc (doc : String) : Metadata where
  what := tagText "@what" doc
  why := tagText "@why" doc
  failure := tagText "@failure" doc

end Lintel.Policy
