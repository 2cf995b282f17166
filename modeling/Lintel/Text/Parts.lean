/-!
# Parts of a text

Whether a text starts with, ends with or holds another one, and the replacement of one by another.
-/

namespace Lintel.Text

/-- The text starts with `front`. -/
def startsWith (front s : String) : Bool := front.toList.isPrefixOf s.toList

/-- The text ends with `back`. -/
def endsWith (back s : String) : Bool := back.toList.isSuffixOf s.toList

/-- The characters hold `part` somewhere. -/
def holdsChars (part : List Char) : List Char → Bool
  | [] => part.isEmpty
  | c :: cs => part.isPrefixOf (c :: cs) || holdsChars part cs

/-- The text holds `part` somewhere. -/
def holds (part s : String) : Bool := holdsChars part.toList s.toList

/-- Puts `new` for each occurrence of `old`, from the left; `skip` characters are part of one that was
just replaced. -/
def replaceChars (old new : List Char) : Nat → List Char → List Char
  | _, [] => []
  | skip + 1, _ :: cs => replaceChars old new skip cs
  | 0, c :: cs =>
    if old.isPrefixOf (c :: cs) then new ++ replaceChars old new (old.length - 1) cs
    else c :: replaceChars old new 0 cs

/-- The text with `new` for each occurrence of `old`, which is not empty. -/
def replace (old new s : String) : String :=
  String.ofList (replaceChars old.toList new.toList 0 s.toList)

end Lintel.Text
