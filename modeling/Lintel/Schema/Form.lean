import Lintel.Schema.Read

/-!
# Forms

A form is an object with named fields. Its fields are read one after the other, and the problems of all
of them are told (`Form.run`). A field may have a second name.
-/

namespace Lintel.Schema

/-- A reader that goes on after a problem and notes it. -/
abbrev Form := StateM (List Problem)

/-- The names that a field is looked up by, in order. -/
structure Names where
  first : String
  second : Option String := none

/-- A field with one name. -/
instance : Coe String Names := ⟨fun name => ⟨name, none⟩⟩

/-- The name of a field that the members have, with its value. -/
def Names.find? (names : Names) (members : List (String × Json)) : Option (String × Json) :=
  match Json.lookup names.first members, names.second with
  | some value, _ => some (names.first, value)
  | none, some second => (Json.lookup second members).map fun value => (second, value)
  | none, none => none

namespace Form

/-- Notes problems. -/
def note (problems : List Problem) : Form Unit := modify (· ++ problems)

/-- Reads a field that is there; `fallback` stands for it after a problem. -/
def present {α : Type} (name : String) (read : Json → Checked α) (fallback : α) (value : Json) :
    Form α :=
  match read value with
  | .ok a => return a
  | .error problems => do
    note (problems.map (Problem.below name))
    return fallback

/-- Reads a field; without it, it has the value `default`. -/
def field {α : Type} (members : List (String × Json)) (names : Names) (read : Json → Checked α)
    (default : α) : Form α :=
  match names.find? members with
  | some (name, value) => present name read default value
  | none => return default

/-- Reads a field that has to be there. -/
def required {α : Type} [Inhabited α] (members : List (String × Json)) (names : Names)
    (read : Json → Checked α) : Form α :=
  match names.find? members with
  | some (name, value) => present name read default value
  | none => do
    note [⟨[names.first], .missing, .obj members⟩]
    return default

/-- Notes the members that belong to no field. -/
def closed (members : List (String × Json)) (fields : List Names) : Form Unit :=
  let used := fields.filterMap fun names => (names.find? members).map (·.1)
  note ((members.filter fun m => !used.contains m.1).map fun m => ⟨[m.1], .extra, m.2⟩)

/-- What a form yields, or all its problems. -/
def run {α : Type} (form : Form α) : Checked α :=
  match StateT.run form [] with
  | (a, []) => .ok a
  | (_, problems) => .error problems

end Form

/-- Reads an object as a form; `name` is the name of the form. -/
def ofObject {α : Type} (name : String) (form : List (String × Json) → Form α) : Json → Checked α
  | .obj members => (form members).run
  | other => refuse (.notForm name) other

end Lintel.Schema
