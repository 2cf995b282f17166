import Lintel.Files.Tree
import Lintel.Unicode.Word
import Lintel.Wildcard

/-!
# The entities of a project

The entities are the classes that the files `*.entity.ts` of the domain model export, each at the start
of a line (`exportedClass?`). They are looked up once and kept from then on (`EntityIndex.names`).
-/

namespace Lintel.Project

open Files (Path View)

/-! ## Exported classes -/

/-- The rest after a word and the blanks that must follow it. -/
def afterWord? (word : String) (cs : List Char) : Option (List Char) := do
  let rest ← Json.after? word.toList cs
  match rest with
  | c :: _ => if Text.isBlank c then some (rest.dropWhile Text.isBlank) else none
  | [] => none

/-- The name at the front: a capital letter and the word characters after it. -/
def capitalName? : List Char → Option String
  | [] => none
  | c :: cs =>
    if 'A' ≤ c && c ≤ 'Z' then some (String.ofList (c :: cs.takeWhile Unicode.isWordChar)) else none

/-- The name of the class whose export stands at the front. -/
def exportedClass? (cs : List Char) : Option String := do
  let rest ← afterWord? "export" cs
  let rest := (afterWord? "abstract" rest).getD rest
  capitalName? (← afterWord? "class" rest)

/-- The classes that a text exports at the start of a line. -/
def exportedClassesFrom (atStart : Bool) : List Char → List String
  | [] => []
  | c :: cs =>
    let rest := exportedClassesFrom (c == '\n') cs
    if atStart then (exportedClass? (c :: cs)).toList ++ rest else rest

/-- The classes that a text exports. -/
def exportedClasses (text : String) : List String := exportedClassesFrom true text.toList

/-! ## The index -/

/-- The names of the entities, once they are known, and where they come from. -/
structure EntityIndex where
  root : Path
  known : Option (List String) := none

/-- The directory of the domain model, from the root of a project. -/
def defaultModelDir : String := "server/src/domain/model"

/-- The index of a project. -/
def EntityIndex.ofProject (root : Path) (modelDir : String := defaultModelDir) : EntityIndex :=
  ⟨root.join (.ofString modelDir), none⟩

/-- The name is that of an entity file. -/
def isEntityFile (name : String) : Bool := Text.endsWith ".entity.ts" name

/-- What an entry of the file tree adds to the entities; directories add nothing. -/
def entitiesOf : Entry → Except Fault (List String)
  | .dir => .ok []
  | .file content _ => (View.textOf content).map exportedClasses

/-- The texts in order, each one once. -/
def sortedUnique (names : List String) : List String :=
  (names.mergeSort fun a b => !(b < a)).eraseReps

/-- The first row of components does not come after the second. -/
def belowLe (a b : List String × Entry) : Bool := Files.partsLe a.1 b.1

/-- The names of the entities in the domain model at a path, none if no directory stands there. -/
def entitiesBelow (view : View) (root : Path) : Except Fault (List String) := do
  if ← view.askDir root then
    let files := (view.below root).filter fun e => isEntityFile (e.1.getLast?.getD "")
    let names ← (files.mergeSort belowLe).mapM fun e => entitiesOf e.2
    return sortedUnique names.flatten
  else return []

/-- The names of the entities; from the first answer on they are kept. -/
def EntityIndex.names (index : EntityIndex) (view : View) :
    Except Fault (List String × EntityIndex) :=
  match index.known with
  | some names => .ok (names, index)
  | none => do
    let names ← entitiesBelow view index.root
    return (names, { index with known := some names })

end Lintel.Project
