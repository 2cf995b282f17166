import Lintel.Proofs.Files.Within
import Lintel.Tool.Analysis.Infra

/-!
# Guarded tools

A tool is judged by what it printed. A guard turns its failures into a failed report; a fault that is
none of its failures gets past the guard.

* `Tells`: what a report says of an answer and of the judgement about it;
* `ends_guarded`, `tells_of_guarded`: when there is a report, and what it says;
* `settles_readOutput`, `readOutput_eq_ok`: the first step of reading JSON;
* `ends_narrowTo`: when issues can be narrowed to the targets.
-/

namespace Lintel.Tool

open Files (Path View NamesFile)

variable {issue : Type} {tool : String} {answer : Answer}
  {judge : Printed → Except Fault (ToolReport issue)} {report : ToolReport issue}

/-! ## Guards -/

/-- The report of a tool is the one that its output gives; a tool that was not run, or whose output
cannot be used, has a failed report with the reason. -/
def Tells (answer : Answer) (judge : Printed → Except Fault (ToolReport issue))
    (report : ToolReport issue) : Prop :=
  match answer with
  | .error unrun => report.passed = false ∧ report.error = some unrun.message
  | .ok printed =>
    match judge printed with
    | .ok own => report = own
    | .error fault => report.passed = false ∧ report.error = some fault.message

/-- The output was printed and understood. -/
def Understood (answer : Answer) (judge : Printed → Except Fault (ToolReport issue)) : Prop :=
  ∃ printed, answer = .ok printed ∧ Ends (judge printed)

/-- If there is output, it settles the judgement. -/
def Settled (answer : Answer) (judge : Printed → Except Fault (ToolReport issue)) : Prop :=
  ∀ printed, answer = .ok printed → Settles (judge printed)

theorem ends_guarded : Ends (guarded tool answer judge) ↔ Settled answer judge := by
  cases answer with
  | error unrun => simp [guarded, Settled, ends_ok]
  | ok printed =>
    simp only [guarded, Settled, Except.ok.injEq, forall_eq']
    cases judge printed with
    | ok own => simp [ends_ok, failsOnlyWith_ok]
    | error fault =>
      cases fault <;> simp [ends_ok, not_ends_error, failsOnlyWith_error, Fault.IsReported]

/-- What becomes of a tool that is run if it is wanted. -/
def TellsIf (wanted : Bool) (answer : Answer) (judge : Printed → Except Fault (ToolReport issue))
    (report? : Option (ToolReport issue)) : Prop :=
  if wanted then ∃ report, report? = some report ∧ Tells answer judge report else report? = none

theorem ends_runIf {wanted : Bool} {run : Command → Answer} {command : Command} :
    Ends (Id.run (runIf wanted run tool command judge)) ↔
      (wanted = true → Settled (run command) judge) := by
  cases wanted with
  | false => exact iff_of_true (ends_ok _) (by simp)
  | true =>
    rw [forall_prop_of_true rfl, ← ends_guarded]
    exact ends_map

/-- The output is JSON for a value. -/
def Prints (output : String) (value : Json) : Prop :=
  (Text.trimChars output.toList).isEmpty = false ∧ Json.parse output.toList = .ok value

/-- Reading the output does not come to a whole number that is too long. -/
def NoLongInteger (output : String) : Prop :=
  (Text.trimChars output.toList).isEmpty = false →
    ∀ digits, Json.parse output.toList ≠ .error (.longInteger digits)

theorem readOutput_eq_ok {label output : String} {value : Json} :
    readOutput label tool output = .ok value ↔ Prints output value := by
  rw [readOutput, Prints]
  cases (Text.trimChars output.toList).isEmpty with
  | true => simp
  | false =>
    cases Json.parse output.toList with
    | ok found => simp
    | error flaw => cases flaw <;> simp

theorem settles_readOutput {label output : String} :
    Settles (readOutput label tool output) ↔ NoLongInteger output := by
  rw [readOutput, NoLongInteger]
  cases (Text.trimChars output.toList).isEmpty with
  | true => simp [failsOnlyWith_error, Fault.IsReported]
  | false =>
    cases Json.parse output.toList with
    | ok found => simp [failsOnlyWith_ok]
    | error flaw => cases flaw <;> simp [failsOnlyWith_error, Fault.IsReported]

theorem settles_readObject {α : Type} {label output : String} {f : Json → Except Fault α}
    (hother : ∀ value, value.isObject = false → Settles (f value)) :
    Settles (readOutput label tool output >>= f) ↔
      NoLongInteger output ∧ ∀ members, Prints output (.obj members) → Settles (f (.obj members)) := by
  rw [settles_bind, settles_readOutput]
  simp only [readOutput_eq_ok]
  refine and_congr_right fun _ => ⟨fun h members => h (.obj members), fun h value hprints => ?_⟩
  cases value with
  | obj members => exact h members hprints
  | _ => exact hother _ rfl

theorem withOutput_eq_ok {α : Type} {printed : Printed} {x : Except Fault α} {a : α} :
    withOutput printed x = .ok a ↔ x = .ok a := by
  cases x with
  | ok b => rfl
  | error fault => cases fault <;> simp [withOutput]

theorem settles_withOutput {α : Type} {printed : Printed} {x : Except Fault α} :
    Settles (withOutput printed x) ↔ Settles x := by
  cases x with
  | ok b => rfl
  | error fault => cases fault <;> simp [withOutput, failsOnlyWith_error, Fault.IsReported]

/-! ## Issues within the targets -/

section Narrow

variable {view : View} {directory : Path} {targets : List String} {file : issue → Json}
  {issues : List issue}

theorem ends_narrowTo :
    Ends (narrowTo view directory targets file issues) ↔
      ∀ i ∈ issues, NamesFile directory targets (file i) := by
  have hkeep : ∀ i, Ends (do
      return if ← Files.isValueWithin view directory targets (file i) then some i else none) ↔
        NamesFile directory targets (file i) := by
    intro i
    have hinside : Ends (Files.isValueWithin view directory targets (file i)) ↔
        NamesFile directory targets (file i) := Files.ends_isValueWithin
    rw [← hinside, ends_bind]
    exact exists_congr fun inside => and_iff_left (ends_ok _)
  rw [narrowTo, ends_bind]
  simp only [← hkeep, ← ends_mapM]
  exact exists_congr fun kept => and_iff_left (ends_ok _)

theorem escapes_narrowTo : Escapes (narrowTo view directory targets file issues) := by
  refine (FailsOnlyWith.mapM fun i _ => ?_).bind fun kept => failsOnlyWith_ok _
  exact Files.escapes_isValueWithin.bind fun inside => failsOnlyWith_ok _

theorem settles_narrowTo_bind {α : Type} {g : List issue → α} :
    (Settles do return g (← narrowTo view directory targets file issues)) ↔
      ∀ i ∈ issues, NamesFile directory targets (file i) := by
  rw [settles_bind, escapes_narrowTo.settles_iff, ends_narrowTo]
  exact and_iff_left fun _ _ => failsOnlyWith_ok _

end Narrow

end Lintel.Tool
