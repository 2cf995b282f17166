import Lintel.Check.Source
import Mathlib.Data.List.Basic

/-!
# Checks as folds over nodes

While a rule goes through a source, its context changes: violations are added, and the index of the
entities is filled. What a visitor learns from the index never changes.

* `answerOf`, `consult_eq`: what an index tells, before and after it was asked;
* `Visit.result`: the violations after a visit that is always told the same; `runVisit_eq`, `visitAll_eq`:
  so is every visit;
* **`check_eq`**: a check is a fold over the nodes, whatever the index has been asked before;
* `Raises`, `check_eq_error_iff`: it fails where the first visit raises a fault.
-/

namespace Lintel

open Files (View)
open Project (EntityIndex)
open Rule (Finding Violation Visit)
open Syntax (Cursor Source)

/-! ## What the index tells -/

/-- What visitors are told when they ask for the names of the entities. -/
def Check.answerOf (view : View) (index : Option EntityIndex) : Option (Except Fault (List String)) :=
  index.map fun index => (index.names view).map Prod.fst

theorem Project.EntityIndex.names_again {view : View} {index index' : EntityIndex}
    {found : List String} (h : index.names view = .ok (found, index')) :
    index'.names view = .ok (found, index') := by
  obtain ⟨root, known⟩ := index
  cases known with
  | some kept => cases h; rfl
  | none =>
    rw [EntityIndex.names] at h
    cases hbelow : Project.entitiesBelow view root with
    | error fault => simp only [hbelow] at h; cases h
    | ok names => simp only [hbelow] at h; cases h; rfl

/-- The violations after a visit, when the names are always the same. A fault leaves no violations. -/
def Rule.Visit.result (answer : Option (Except Fault (List String))) (shown : Finding → Violation)
    (before : List Violation) : Visit → Except Fault (List Violation)
  | .done => .ok before
  | .report finding next => next.result answer shown (before ++ [shown finding])
  | .fail fault => .error fault
  | .consult next => (next answer).result answer shown before
  | .lookBack next => (next before).result answer shown before

namespace Check

variable (view : View)

theorem consult_of_ok {index : EntityIndex} {found : List String × EntityIndex}
    (h : index.names view = .ok found) (violations : List Violation) :
    (⟨violations, some index⟩ : Context).consult view =
      (some (.ok found.1), ⟨violations, some found.2⟩) := by
  simp only [Context.consult, h]

theorem consult_of_error {index : EntityIndex} {fault : Fault}
    (h : index.names view = .error fault) (violations : List Violation) :
    (⟨violations, some index⟩ : Context).consult view =
      (some (.error fault), ⟨violations, some index⟩) := by
  simp only [Context.consult, h]

theorem answerOf_some (index : EntityIndex) :
    answerOf view (some index) = some ((index.names view).map Prod.fst) := rfl

/-- **Asking** yields what the index tells, and does not change it. -/
theorem consult_eq (context : Context) :
    (context.consult view).1 = answerOf view context.index ∧
      (context.consult view).2.violations = context.violations ∧
      answerOf view (context.consult view).2.index = answerOf view context.index := by
  obtain ⟨violations, _ | index⟩ := context
  · exact ⟨rfl, rfl, rfl⟩
  · cases hnames : index.names view with
    | error fault =>
      rw [consult_of_error view hnames, answerOf_some, hnames]
      exact ⟨rfl, rfl, rfl⟩
    | ok found =>
      rw [consult_of_ok view hnames, answerOf_some, answerOf_some, hnames,
        EntityIndex.names_again hnames]
      exact ⟨rfl, rfl, rfl⟩

/-! ## Visits -/

variable (rule : Rule) (source : Source)

/-- The violations of a visit or of visits that have ended, if no fault broke them off. -/
def violationsOf (ran : Except Fault Unit × Context) : Except Fault (List Violation) :=
  ran.1.map fun _ => ran.2.violations

/-- **A visit** only depends on the violations so far and on what the index tells. -/
theorem runVisit_eq (visit : Visit) (context : Context) :
    violationsOf (runVisit view rule source context visit) =
        visit.result (answerOf view context.index) (rule.violation source) context.violations ∧
      answerOf view (runVisit view rule source context visit).2.index =
        answerOf view context.index := by
  induction visit generalizing context with
  | done => exact ⟨rfl, rfl⟩
  | fail fault => exact ⟨rfl, rfl⟩
  | report finding next ih =>
    exact ih { context with violations := context.violations ++ [rule.violation source finding] }
  | lookBack next ih => exact ih context.violations context
  | consult next ih =>
    obtain ⟨hfirst, hsame, hagain⟩ := consult_eq view context
    obtain ⟨hviolations, hanswer⟩ := ih (context.consult view).1 (context.consult view).2
    have hstep : runVisit view rule source context (.consult next) =
        runVisit view rule source (context.consult view).2 (next (context.consult view).1) := rfl
    rw [hagain, hsame] at hviolations
    rw [hstep, hviolations, hanswer, hagain, hfirst]
    exact ⟨rfl, rfl⟩

/-- The violations after visits of some nodes, up to the first fault. -/
def results (answer : Option (Except Fault (List String))) (before : List Violation)
    (cursors : List Cursor) : Except Fault (List Violation) :=
  cursors.foldlM (fun before c => (rule.visitor source c).result answer (rule.violation source) before)
    before

theorem results_cons (answer : Option (Except Fault (List String))) (before : List Violation)
    (c : Cursor) (cursors : List Cursor) :
    results rule source answer before (c :: cursors) =
      (rule.visitor source c).result answer (rule.violation source) before >>= fun after =>
        results rule source answer after cursors :=
  List.foldlM_cons

theorem visitAll_eq (cursors : List Cursor) (context : Context) :
    violationsOf (visitAll view rule source context cursors) =
        results rule source (answerOf view context.index) context.violations cursors ∧
      answerOf view (visitAll view rule source context cursors).2.index =
        answerOf view context.index := by
  induction cursors generalizing context with
  | nil => exact ⟨rfl, rfl⟩
  | cons c cursors ih =>
    obtain ⟨hviolations, hanswer⟩ :=
      runVisit_eq view rule source (rule.visitor source c) context
    rw [results_cons, ← hviolations, visitAll]
    cases hran : runVisit view rule source context (rule.visitor source c) with
    | mk ended after =>
      rw [hran] at hanswer
      cases ended with
      | error fault => exact ⟨rfl, hanswer⟩
      | ok done =>
        obtain ⟨hrest, hagain⟩ := ih after
        rw [hanswer] at hrest hagain
        exact ⟨hrest, hagain⟩

/-! ## Checks -/

/-- **A check is a fold over the nodes.** -/
theorem check_eq (index : Option EntityIndex) (h : rule.appliesTo source.path = true) :
    (check view rule source index).1 =
      results rule source (answerOf view index) [] (Syntax.walk source.root) := by
  rw [check, if_pos h]
  exact (visitAll_eq view rule source _ ⟨[], index⟩).1

theorem answerOf_check (index : Option EntityIndex) :
    answerOf view (check view rule source index).2 = answerOf view index := by
  rw [check]
  split
  · exact (visitAll_eq view rule source _ ⟨[], index⟩).2
  · rfl

theorem results_eq_error_iff {answer : Option (Except Fault (List String))}
    {before : List Violation} {cursors : List Cursor} {fault : Fault} :
    results rule source answer before cursors = .error fault ↔
      ∃ front c back reported, cursors = front ++ c :: back ∧
        results rule source answer before front = .ok reported ∧
        (rule.visitor source c).result answer (rule.violation source) reported = .error fault := by
  induction cursors generalizing before with
  | nil =>
    constructor
    · intro h
      cases h
    · rintro ⟨front, c, back, reported, hsplit, -⟩
      exact absurd hsplit (by simp)
  | cons first cursors ih =>
    rw [results_cons]
    constructor
    · intro h
      cases hfirst : (rule.visitor source first).result answer (rule.violation source) before with
      | error cause =>
        rw [hfirst] at h
        cases h
        exact ⟨[], first, cursors, before, rfl, rfl, hfirst⟩
      | ok after =>
        rw [hfirst] at h
        obtain ⟨front, c, back, reported, rfl, hfront, hbroken⟩ := ih.mp h
        refine ⟨first :: front, c, back, reported, rfl, ?_, hbroken⟩
        rw [results_cons, hfirst]
        exact hfront
    · rintro ⟨front, c, back, reported, hsplit, hfront, hbroken⟩
      cases front with
      | nil =>
        cases hsplit
        cases hfront
        rw [hbroken]
        rfl
      | cons head front =>
        cases hsplit
        rw [results_cons] at hfront
        cases hfirst : (rule.visitor source first).result answer (rule.violation source) before with
        | error cause => rw [hfirst] at hfront; cases hfront
        | ok after =>
          rw [hfirst] at hfront
          exact ih.mpr ⟨front, c, back, reported, rfl, hfront, hbroken⟩

/-- The visitor of a rule raises a fault at some node of a source. -/
def Raises (answer : Option (Except Fault (List String))) (fault : Fault) : Prop :=
  ∃ front c back reported, Syntax.walk source.root = front ++ c :: back ∧
    results rule source answer [] front = .ok reported ∧
    (rule.visitor source c).result answer (rule.violation source) reported = .error fault

/-- **A check fails if the visitor raises a fault anywhere.** -/
theorem check_eq_error_iff (index : Option EntityIndex) (h : rule.appliesTo source.path = true)
    (fault : Fault) :
    (check view rule source index).1 = .error fault ↔
      Raises rule source (answerOf view index) fault := by
  rw [check_eq view rule source index h]
  exact results_eq_error_iff rule source

end Check

end Lintel
