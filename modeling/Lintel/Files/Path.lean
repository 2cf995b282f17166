import Lintel.Text.Lines

/-!
# Paths

A path is a root and a row of components; empty components and single dots are dropped when it is read
(`Path.ofString`). A place is a row of components from the root of the file system in which `..` has
taken back the component before it (`Path.resolve`).
-/

namespace Lintel.Files

/-- Where a path starts: in the current directory, at the root, or at a root with two slashes. -/
inductive Root where
  | none
  | one
  | two
  deriving DecidableEq, Repr

/-- A path. -/
structure Path where
  root : Root
  parts : List String
  deriving DecidableEq, Repr

/-- A place in the file system: components from the root, none of them a dot or two dots. -/
abbrev Place := List String

namespace Path

/-- The components of a text: what stands between slashes, without empty ones and single dots. -/
def partsOf (cs : List Char) : List String :=
  ((Text.splitAtChar '/' cs).filter fun part => !part.isEmpty && part != ['.']).map String.ofList

/-- Reads a path. -/
def ofString (s : String) : Path :=
  let cs := s.toList
  let root := match cs with
    | '/' :: '/' :: '/' :: _ => Root.one
    | '/' :: '/' :: _ => .two
    | '/' :: _ => .one
    | _ => .none
  ⟨root, partsOf cs⟩

/-- The text of a path. -/
def text (p : Path) : String :=
  let body := "/".intercalate p.parts
  match p.root with
  | .none => if p.parts.isEmpty then "." else body
  | .one => "/" ++ body
  | .two => "//" ++ body

/-- The path starts at a root. -/
def isAbsolute (p : Path) : Bool := p.root != .none

/-- The path `q` as seen from `p`. -/
def join (p q : Path) : Path := if q.isAbsolute then q else ⟨p.root, p.parts ++ q.parts⟩

/-- The path of an entry of the directory `p`. -/
def child (p : Path) (name : String) : Path := ⟨p.root, p.parts ++ [name]⟩

/-- The last component, empty if there is none. -/
def name (p : Path) : String := p.parts.getLast?.getD ""

/-- The end of a name from its last dot on, if the dot is neither first nor last. -/
def suffixOf (name : List Char) : List Char :=
  let tail := name.reverse.takeWhile (· != '.')
  if tail.isEmpty || name.length ≤ tail.length + 1 then [] else '.' :: tail.reverse

/-- The end of the name from its last dot on. -/
def suffix (p : Path) : String := String.ofList (suffixOf p.name.toList)

/-- One step from a place. -/
def step (place : Place) (part : String) : Place :=
  if part == ".." then place.dropLast else place ++ [part]

/-- The place that components lead to from a place. -/
def walk (place : Place) (parts : List String) : Place := parts.foldl step place

/-- The place of a path; a relative one is taken from `base`. -/
def resolve (base : Place) (p : Path) : Place :=
  walk (if p.isAbsolute then [] else base) p.parts

/-- The path of a place. -/
def ofPlace (place : Place) : Path := ⟨.one, place⟩

end Path

/-- The text of a place. -/
def placeText (place : Place) : String := (Path.ofPlace place).text

/-- The order of rows of components. -/
def partsLe : List String → List String → Bool
  | [], _ => true
  | _ :: _, [] => false
  | a :: as, b :: bs => if a == b then partsLe as bs else a < b

/-- The order of paths. -/
def pathLe (p q : Path) : Bool := partsLe p.parts q.parts

end Lintel.Files
