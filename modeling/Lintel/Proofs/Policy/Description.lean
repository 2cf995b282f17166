import Lintel.Policy.Documents
import Lintel.Proofs.Except
import Lintel.Proofs.Files.Entries

/-!
# Descriptions of policies

The description of a policy is an object with a label, a description, and the names of other policies. A file
that cannot be opened or says something else has none, with two exceptions: bytes that are no text, and a
whole number that is too long to read, are faults.

* `Describes`: a value is a description; `metaOf?_eq_some_iff`: it is read as what it says;
* `IsDescribed`, `BreaksReading`: a file holds a description, or is read with a fault;
* **`readMeta_eq_some_iff`**, **`readMeta_eq_error_iff`**: what is read in a file.
-/

namespace Lintel.Policy

open Files (Path View)

variable {view : View} {path : Path} {value : Json} {about : PolicyMeta}

/-- The value says what a description says: its members have the right kinds, and others are of no account. -/
structure Describes (value : Json) (about : PolicyMeta) : Prop where
  label : value.member? "label" = some (.str about.label)
  description : value.member? "description" = some (.str about.description)
  dependencies : (value.member? "dependencies" = none ∧ about.dependencies = []) ∨
    value.member? "dependencies" = some (.arr (about.dependencies.map .str))

theorem textOf?_eq_some_iff {text : String} : textOf? value = some text ↔ value = .str text := by
  cases value <;> simp [textOf?]

theorem mapM_textOf?_eq_some_iff {items : List Json} {texts : List String} :
    items.mapM textOf? = some texts ↔ items = texts.map .str := by
  induction items generalizing texts with
  | nil => simp [eq_comm]
  | cons item items ih =>
    rw [List.mapM_cons]
    simp only [Option.bind_eq_bind, Option.bind_eq_some_iff, Option.pure_def, Option.some.injEq,
      textOf?_eq_some_iff, ih]
    constructor
    · rintro ⟨text, rfl, rest, rfl, rfl⟩
      rfl
    · intro h
      cases texts with
      | nil => cases h
      | cons text texts =>
        obtain ⟨hitem, hitems⟩ := List.cons.inj h
        exact ⟨text, hitem, texts, hitems, rfl⟩

theorem dependenciesOf?_eq_some_iff {member : Option Json} {names : List String} :
    dependenciesOf? member = some names ↔
      (member = none ∧ names = []) ∨ member = some (.arr (names.map .str)) := by
  match member with
  | none => simp [dependenciesOf?, eq_comm]
  | some (.arr items) => simp [dependenciesOf?, mapM_textOf?_eq_some_iff]
  | some .null | some (.bool _) | some (.int _) | some (.float _) | some (.str _) | some (.obj _) =>
    simp [dependenciesOf?]

/-- **A value is read as what it says.** -/
theorem metaOf?_eq_some_iff : metaOf? value = some about ↔ Describes value about := by
  have hmember : ∀ (name text : String), (value.member? name).bind textOf? = some text ↔
      value.member? name = some (.str text) := by
    intro name text
    simp [Option.bind_eq_some_iff, textOf?_eq_some_iff]
  simp only [metaOf?, Option.bind_eq_bind, Option.bind_eq_some_iff, hmember,
    dependenciesOf?_eq_some_iff, Option.pure_def, Option.some.injEq]
  constructor
  · rintro ⟨label, hlabel, description, hdescription, names, hnames, rfl⟩
    exact ⟨hlabel, hdescription, hnames⟩
  · intro h
    exact ⟨_, h.label, _, h.description, _, h.dependencies, rfl⟩

/-! ## Files with descriptions -/

/-- The file at the path is a text, the text is JSON, and the value is a description. -/
def IsDescribed (view : View) (path : Path) (about : PolicyMeta) : Prop :=
  ∃ text value, view.readText path = .ok text ∧ Json.parse text.toList = .ok value ∧
    Describes value about

/-- The file at the path is read with a fault: its bytes are no text, or the text has a number that is too
long. -/
def BreaksReading (view : View) (path : Path) (fault : Fault) : Prop :=
  (∃ flaw, view.readText path = .error (.undecodable flaw) ∧ .undecodable flaw = fault) ∨
    ∃ text digits, view.readText path = .ok text ∧
      Json.parse text.toList = .error (.longInteger digits) ∧ .longInteger digits = fault

theorem readMeta_eq_some_iff :
    readMeta view path = .ok (some about) ↔ IsDescribed view path about := by
  unfold readMeta IsDescribed
  cases view.readText path with
  | error fault => cases fault <;> simp
  | ok text =>
    cases hparse : Json.parse text.toList with
    | error unreadable => cases unreadable <;> simp [hparse]
    | ok value => simp [hparse, metaOf?_eq_some_iff]

theorem readMeta_eq_error_iff {fault : Fault} :
    readMeta view path = .error fault ↔ BreaksReading view path fault := by
  unfold readMeta BreaksReading
  cases view.readText path with
  | error refusal => cases refusal <;> simp
  | ok text =>
    cases hparse : Json.parse text.toList with
    | error unreadable => cases unreadable <;> simp [hparse]
    | ok value => simp [hparse]

theorem readMeta_of_not_isFile (h : view.isFile path = false) : readMeta view path = .ok none := by
  unfold readMeta View.readText View.readBytes
  split_ifs
  · rfl
  · cases hpath : view.locate path with
    | error refusal => rfl
    | ok found =>
      obtain ⟨place, _ | ⟨content, rules⟩⟩ := found
      · rfl
      · simp [View.isFile, hpath] at h

theorem IsDescribed.isFile (h : IsDescribed view path about) : view.isFile path = true := by
  by_contra hnot
  have hnone := readMeta_of_not_isFile (Bool.eq_false_iff.mpr hnot)
  rw [readMeta_eq_some_iff.mpr h] at hnone
  cases hnone

theorem BreaksReading.isFile {fault : Fault} (h : BreaksReading view path fault) :
    view.isFile path = true := by
  by_contra hnot
  have hnone := readMeta_of_not_isFile (Bool.eq_false_iff.mpr hnot)
  rw [readMeta_eq_error_iff.mpr h] at hnone
  cases hnone

end Lintel.Policy
