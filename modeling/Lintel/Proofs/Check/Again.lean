import Lintel.Proofs.Check.Run

/-!
# Runs that share an index

The index of a project is filled by the first rule that asks for the names of the entities and is kept from
then on. While the files do not change, no run can tell what the index was used for before.

* `Use`, `indexAfter`: uses of an index, and the index after them; `answerOf_after`: one use does not change
  what the index tells, `answerOf_indexAfter`: nor do any number of them;
* `run_congr`: a run depends on the index only through what it tells;
* **`runs_eq_replicate`**: any number of runs with one index, whatever it was used for before, find what a
  run with a fresh index finds.
-/

namespace Lintel.Check

open Files (Path View)
open Project (EntityIndex)
open Syntax (Source)

/-! ## Uses of an index -/

/-- A use of the index of a project: its names are asked for, with or without success, one rule is applied
to one source, or rules are applied to the source files of targets. -/
inductive Use where
  | ask
  | check (rule : Rule) (source : Source)
  | run (rules : List Rule) (targets : List String)

variable (view : View) (reading : Reading)

/-- The index after a use. -/
def Use.after (index : Option EntityIndex) : Use → Option EntityIndex
  | .ask => ((⟨[], index⟩ : Context).consult view).2.index
  | .check rule source => (Check.check view rule source index).2
  | .run rules targets => (Check.run view reading rules targets index).2

/-- The index after uses, one after another. -/
def indexAfter (uses : List Use) (index : Option EntityIndex) : Option EntityIndex :=
  uses.foldl (Use.after view reading) index

/-- What runs find that use one index, one after another. -/
def runs (rules : List Rule) (targets : List String) : ℕ → Option EntityIndex → List (Except Fault Outcome)
  | 0, _ => []
  | times + 1, index =>
    let (ran, index) := run view reading rules targets index
    ran :: runs rules targets times index

variable {view reading} {index index' : Option EntityIndex}

/-! ## Runs -/

/-- **A run depends on the index only through what it tells.** -/
theorem run_congr (h : answerOf view index' = answerOf view index) (rules : List Rule)
    (targets : List String) :
    (run view reading rules targets index').1 = (run view reading rules targets index).1 := by
  rw [(holds_run rules targets h).outcome, (holds_run rules targets rfl).outcome]

/-! ## The index along its uses -/

/-- **A use does not change what the index tells**, also if a rule breaks down or the names cannot be
looked up. -/
theorem answerOf_after (use : Use) (index : Option EntityIndex) :
    answerOf view (use.after view reading index) = answerOf view index := by
  cases use with
  | ask => exact (consult_eq view ⟨[], index⟩).2.2
  | check rule source => exact answerOf_check view rule source index
  | run rules targets => exact (holds_run rules targets rfl).answer

theorem answerOf_indexAfter (uses : List Use) (index : Option EntityIndex) :
    answerOf view (indexAfter view reading uses index) = answerOf view index := by
  induction uses generalizing index with
  | nil => rfl
  | cons use uses ih =>
    have hstep : indexAfter view reading (use :: uses) index =
        indexAfter view reading uses (use.after view reading index) := rfl
    rw [hstep, ih, answerOf_after]

theorem runs_of_answerOf_eq (rules : List Rule) (targets : List String) (times : ℕ)
    (h : answerOf view index' = answerOf view index) :
    runs view reading rules targets times index' =
      List.replicate times (run view reading rules targets index).1 := by
  induction times generalizing index' with
  | zero => rfl
  | succ times ih =>
    -- the index after the first run still tells the same
    have hafter : answerOf view (run view reading rules targets index').2 = answerOf view index :=
      (holds_run rules targets h).answer
    have hstep : runs view reading rules targets (times + 1) index' =
        (run view reading rules targets index').1 ::
          runs view reading rules targets times (run view reading rules targets index').2 := rfl
    rw [hstep, ih hafter, run_congr h, List.replicate_succ]

/-- **Runs with one index, however many, find what a run with a fresh index finds**, whatever the index was
used for before, as long as the files do not change. -/
theorem runs_eq_replicate (view : View) (reading : Reading) (rules : List Rule)
    (targets : List String) (root : Path) (modelDir : String) (uses : List Use) (times : ℕ) :
    let fresh := some (EntityIndex.ofProject root modelDir)
    runs view reading rules targets times (indexAfter view reading uses fresh) =
      List.replicate times (run view reading rules targets fresh).1 := by
  intro fresh
  have htells : answerOf view (indexAfter view reading uses fresh) = answerOf view fresh :=
    answerOf_indexAfter uses fresh
  exact runs_of_answerOf_eq rules targets times htells

end Lintel.Check
