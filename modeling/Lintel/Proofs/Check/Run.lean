import Lintel.Check.Run
import Lintel.Proofs.Check.Targets
import Lintel.Proofs.Check.Visit

/-!
# What each rule adds to a run

A run goes over files and rules with one outcome and one index for all of them. What a rule adds to it at
a file is the same as if there were nothing else. It is lost only if some rule ends the program, or if it
cannot be told what stands at a target.

* `share`: what a rule adds at a file; `exit?`, `Exits`: the fault with which it ends the program there;
  `check_congr`: a check depends on the index only through what it tells;
* `Holds`: what a run has come to so far, with an index that tells what it told at first;
  `Holds.applyRule`, `Holds.checkFile`: one step of a run; `Holds.inTurn`: all steps;
  `holds_run`: the whole run;
* **`run_eq_shares`**: a run finds the shares of all files and rules, in this order;
  `not_forall_ends_run`: a target at which nothing stands may put an end to it.
-/

namespace Lintel.Check

open Files (NameTooLong Path Place View)
open Project (EntityIndex)
open Rule (Violation)
open Syntax (Source)

/-! ## Shares -/

/-- What a rule adds to a run at a file. -/
structure Share where
  violations : List Violation := []
  errors : List RuleError := []

variable (view : View) (reading : Reading)

/-- The source of a file with a text. -/
def sourceAt (reading : Reading) (place : Place) (text : String) : Source :=
  .ofText (Files.placeText place) text (reading (Files.placeText place) text)

/-- What a rule adds at a file that it looks at: all violations of its check, or one error if the rule
breaks down or the file cannot be read. -/
def share (index : Option EntityIndex) (place : Place) (rule : Rule) : Share :=
  let path := Files.placeText place
  if rule.appliesTo path then
    match view.readText (.ofPlace place) with
    | .error fault => { errors := [⟨rule.id, path, "Cannot read file: " ++ fault.message⟩] }
    | .ok text =>
      match (check view rule (sourceAt reading place text) index).1 with
      | .ok violations => { violations }
      | .error fault => { errors := [⟨rule.id, path, fault.line⟩] }
  else {}

/-- The fault with which a rule ends the program at a file, if it does. -/
def exit? (index : Option EntityIndex) (place : Place) (rule : Rule) : Option Fault :=
  if rule.appliesTo (Files.placeText place) then
    match view.readText (.ofPlace place) with
    | .error _ => none
    | .ok text =>
      match (check view rule (sourceAt reading place text) index).1 with
      | .ok _ => none
      | .error fault => if fault.isExit then some fault else none
  else none

/-- The rule looks at the file, and its visitor raises a fault there that ends the program. -/
def Exits (index : Option EntityIndex) (place : Place) (rule : Rule) (fault : Fault) : Prop :=
  rule.appliesTo (Files.placeText place) = true ∧ fault.isExit = true ∧
    ∃ text, view.readText (.ofPlace place) = .ok text ∧
      Raises rule (sourceAt reading place text) (answerOf view index) fault

variable {view reading} {index index' : Option EntityIndex}

theorem check_congr (h : answerOf view index' = answerOf view index) (rule : Rule)
    (source : Source) : (check view rule source index').1 = (check view rule source index).1 := by
  by_cases happlies : rule.appliesTo source.path = true
  · rw [check_eq view rule source index' happlies, check_eq view rule source index happlies, h]
  · rw [check, check, if_neg happlies, if_neg happlies]

theorem exit?_of_ok {place : Place} {rule : Rule} {text : String}
    (happlies : rule.appliesTo (Files.placeText place) = true)
    (hread : view.readText (.ofPlace place) = .ok text) :
    exit? view reading index place rule =
      match (check view rule (sourceAt reading place text) index).1 with
      | .ok _ => none
      | .error fault => if fault.isExit then some fault else none := by
  rw [exit?, if_pos happlies, hread]

theorem exit?_eq_some_iff {place : Place} {rule : Rule} {fault : Fault} :
    exit? view reading index place rule = some fault ↔
      Exits view reading index place rule fault := by
  unfold Exits
  by_cases happlies : rule.appliesTo (Files.placeText place) = true
  · cases hread : view.readText (.ofPlace place) with
    | error cause => simp [exit?, hread]
    | ok text =>
      have hraises := check_eq_error_iff view rule (sourceAt reading place text) index happlies fault
      simp only [exit?_of_ok happlies hread, happlies, true_and, Except.ok.injEq, exists_eq_left',
        ← hraises]
      cases (check view rule (sourceAt reading place text) index).1 with
      | ok violations => simp
      | error cause =>
        rw [Option.ite_none_right_eq_some, Option.some.injEq, Except.error.injEq]
        constructor
        · rintro ⟨hexit, rfl⟩
          exact ⟨hexit, rfl⟩
        · rintro ⟨hexit, rfl⟩
          exact ⟨hexit, rfl⟩
  · rw [exit?, if_neg happlies]
    exact ⟨fun h => (nomatch h), fun h => absurd h.1 happlies⟩

theorem share_of_not_applies {place : Place} {rule : Rule}
    (h : rule.appliesTo (Files.placeText place) = false) :
    share view reading index place rule = {} := by
  rw [share]
  simp only [h, Bool.false_eq_true, if_false]

theorem share_of_unreadable {place : Place} {rule : Rule} {fault : Fault}
    (h : rule.appliesTo (Files.placeText place) = true)
    (hread : view.readText (.ofPlace place) = .error fault) :
    share view reading index place rule =
      { errors := [⟨rule.id, Files.placeText place, "Cannot read file: " ++ fault.message⟩] } := by
  rw [share]
  simp only [h, if_true, hread]

/-! ## Sums -/

/-- Two outcomes, one after the other. -/
def Outcome.plus (first second : Outcome) : Outcome where
  violations := first.violations ++ second.violations
  errors := first.errors ++ second.errors
  filesChecked := first.filesChecked + second.filesChecked

/-- All shares one after another, and a number of files. -/
def Outcome.ofShares (shares : List Share) (checked : ℕ) : Outcome where
  violations := shares.flatMap (·.violations)
  errors := shares.flatMap (·.errors)
  filesChecked := checked

theorem Outcome.plus_assoc (first second third : Outcome) :
    (first.plus second).plus third = first.plus (second.plus third) := by
  simp only [plus, List.append_assoc, Nat.add_assoc]

theorem Outcome.ofShares_append (shares shares' : List Share) (checked checked' : ℕ) :
    ofShares (shares ++ shares') (checked + checked') =
      (ofShares shares checked).plus (ofShares shares' checked') := by
  simp only [ofShares, plus, List.flatMap_append]

theorem Outcome.ofShares_cons (share : Share) (shares : List Share) :
    ofShares (share :: shares) 0 = (ofShares [share] 0).plus (ofShares shares 0) :=
  ofShares_append [share] shares 0 0

theorem Outcome.plus_nothing (outcome : Outcome) : outcome.plus (ofShares [] 0) = outcome := by
  simp only [plus, ofShares, List.flatMap_nil, List.append_nil, Nat.add_zero]

theorem Outcome.nothing_plus (outcome : Outcome) : Outcome.plus {} outcome = outcome := by
  simp only [plus, List.nil_append, Nat.zero_add]

theorem findSome?_exit?_filter (rules : List Rule) (place : Place) :
    (rules.filter (·.appliesTo (Files.placeText place))).findSome?
        (exit? view reading index place) =
      rules.findSome? (exit? view reading index place) := by
  induction rules with
  | nil => rfl
  | cons rule rules ih =>
    cases happlies : rule.appliesTo (Files.placeText place) with
    | true => simp only [List.filter_cons, happlies, if_true, List.findSome?_cons, ih]
    | false =>
      have hnone : exit? view reading index place rule = none := by simp [exit?, happlies]
      simp only [List.filter_cons, happlies, Bool.false_eq_true, if_false, List.findSome?_cons,
        hnone, ih]

theorem Outcome.ofShares_filter (rules : List Rule) (place : Place) (checked : ℕ) :
    ofShares ((rules.filter (·.appliesTo (Files.placeText place))).map
        (share view reading index place)) checked =
      ofShares (rules.map (share view reading index place)) checked := by
  induction rules with
  | nil => rfl
  | cons rule rules ih =>
    obtain ⟨hviolations, herrors, -⟩ := Outcome.mk.inj ih
    cases happlies : rule.appliesTo (Files.placeText place) with
    | true =>
      simp only [List.filter_cons, happlies, if_true, List.map_cons, ofShares, List.flatMap_cons,
        hviolations, herrors]
    | false =>
      simp only [List.filter_cons, happlies, Bool.false_eq_true, if_false, List.map_cons, ofShares,
        List.flatMap_cons, hviolations, herrors, share_of_not_applies happlies, List.nil_append]

theorem Outcome.ofShares_unreadable {place : Place} {fault : Fault}
    (hread : view.readText (.ofPlace place) = .error fault) (rules : List Rule)
    (happlies : ∀ rule ∈ rules, rule.appliesTo (Files.placeText place) = true) :
    ofShares (rules.map (share view reading index place)) 0 =
      { errors := rules.map fun rule =>
          ⟨rule.id, Files.placeText place, "Cannot read file: " ++ fault.message⟩ } := by
  induction rules with
  | nil => rfl
  | cons rule rules ih =>
    obtain ⟨hrule, hrules⟩ := List.forall_mem_cons.mp happlies
    rw [List.map_cons, ofShares_cons, ih hrules, share_of_unreadable hrule hread]
    rfl

theorem Outcome.plus_checked (outcome : Outcome) (shares : List Share) :
    outcome.plus (ofShares shares 1) =
      { outcome with filesChecked := outcome.filesChecked + 1 }.plus (ofShares shares 0) := rfl

/-! ## Steps of a run -/

/-- The file is read, and some rule looks at it. -/
def counted (view : View) (rules : List Rule) (place : Place) : Bool :=
  (view.readText (.ofPlace place)).isOk && rules.any (·.appliesTo (Files.placeText place))

/-- What rules add to a run at files. -/
def Outcome.ofFiles (view : View) (reading : Reading) (index : Option EntityIndex)
    (rules : List Rule) (places : List Place) : Outcome :=
  .ofShares (places.flatMap fun place => rules.map (share view reading index place))
    (places.countP (counted view rules))

theorem Outcome.ofFiles_cons (rules : List Rule) (place : Place) (places : List Place) :
    ofFiles view reading index rules (place :: places) =
      (ofFiles view reading index rules [place]).plus (ofFiles view reading index rules places) := by
  rw [ofFiles, ofFiles, ofFiles, ← ofShares_append, List.flatMap_singleton, List.flatMap_cons,
    ← List.countP_append, List.singleton_append]

theorem Outcome.ofFiles_singleton (rules : List Rule) (place : Place) :
    ofFiles view reading index rules [place] =
      ofShares ((rules.filter (·.appliesTo (Files.placeText place))).map
          (share view reading index place))
        (if counted view rules place = true then 1 else 0) := by
  rw [ofFiles, List.flatMap_singleton, List.countP_singleton, ofShares_filter]

theorem counted_of_nil {rules : List Rule} {place : Place}
    (h : rules.filter (·.appliesTo (Files.placeText place)) = []) :
    counted view rules place = false := by
  have hnone : rules.any (·.appliesTo (Files.placeText place)) = false := by
    simpa only [List.any_eq_false] using List.filter_eq_nil_iff.mp h
  rw [counted, hnone, Bool.and_false]

theorem counted_of_error {rules : List Rule} {place : Place} {fault : Fault}
    (hread : view.readText (.ofPlace place) = .error fault) :
    counted view rules place = false := by
  rw [counted, hread]
  rfl

theorem counted_of_ok {rules : List Rule} {place : Place} {text : String}
    (hread : view.readText (.ofPlace place) = .ok text)
    (h : rules.filter (·.appliesTo (Files.placeText place)) ≠ []) :
    counted view rules place = true := by
  obtain ⟨rule, hmem⟩ := List.exists_mem_of_ne_nil _ h
  obtain ⟨hrule, happlies⟩ := List.mem_filter.mp hmem
  rw [counted, hread, Bool.and_eq_true]
  exact ⟨rfl, List.any_eq_true.mpr ⟨rule, hrule, happlies⟩⟩

/-- The outcome, unless the program has come to its end. -/
def unlessExit (stop : Option Fault) (outcome : Outcome) : Except Fault Outcome :=
  match stop with
  | none => .ok outcome
  | some fault => .error fault

theorem unlessExit_eq_ok_iff {stop : Option Fault} {outcome found : Outcome} :
    unlessExit stop outcome = .ok found ↔ stop = none ∧ found = outcome := by
  cases stop <;> simp [unlessExit, eq_comm]

theorem unlessExit_eq_error_iff {stop : Option Fault} {outcome : Outcome} {fault : Fault} :
    unlessExit stop outcome = .error fault ↔ stop = some fault := by
  cases stop <;> simp [unlessExit]

/-- A run has come to this so far, and its index tells what it told at first. -/
structure Holds (view : View) (index : Option EntityIndex) (ran : Course)
    (expected : Except Fault Outcome) : Prop where
  outcome : ran.1 = expected
  answer : answerOf view ran.2 = answerOf view index

namespace Holds

/-- **What each step comes to alone, all steps come to in turn**, up to the first that ends the program. -/
theorem inTurn {α : Type} {step : Outcome → Option EntityIndex → α → Course}
    {stop? : α → Option Fault} {total : List α → Outcome} {as : List α}
    (hnil : total [] = .ofShares [] 0) (hcons : ∀ a as, total (a :: as) = (total [a]).plus (total as))
    (hstep : ∀ a ∈ as, ∀ outcome index', answerOf view index' = answerOf view index →
      Holds view index (step outcome index' a) (unlessExit (stop? a) (outcome.plus (total [a]))))
    (outcome : Outcome) (h : answerOf view index' = answerOf view index) :
    Holds view index (Check.inTurn step outcome index' as)
      (unlessExit (as.findSome? stop?) (outcome.plus (total as))) := by
  induction as generalizing outcome index' with
  | nil =>
    rw [hnil, Outcome.plus_nothing]
    exact ⟨rfl, h⟩
  | cons a as ih =>
    obtain ⟨hfirst, hrest⟩ := List.forall_mem_cons.mp hstep
    obtain ⟨houtcome, hanswer⟩ := hfirst outcome index' h
    rw [Check.inTurn, List.findSome?_cons, hcons, ← Outcome.plus_assoc]
    cases hran : step outcome index' a with
    | mk ended after =>
      rw [hran] at houtcome hanswer
      cases hstop : stop? a with
      | some fault =>
        obtain rfl : ended = .error fault := by rw [hstop] at houtcome; exact houtcome
        exact ⟨rfl, hanswer⟩
      | none =>
        obtain rfl : ended = .ok (outcome.plus (total [a])) := by rw [hstop] at houtcome; exact houtcome
        exact ih hrest (outcome.plus (total [a])) hanswer

/-- One rule at a file. -/
theorem applyRule {place : Place} {text : String} {rule : Rule}
    (hread : view.readText (.ofPlace place) = .ok text)
    (happlies : rule.appliesTo (Files.placeText place) = true) (outcome : Outcome)
    (h : answerOf view index' = answerOf view index) :
    Holds view index (applyRule view (sourceAt reading place text) outcome index' rule)
      (unlessExit (exit? view reading index place rule)
        (outcome.plus (.ofShares [share view reading index place rule] 0))) := by
  have hkeeps := (answerOf_check view rule (sourceAt reading place text) index').trans h
  have hshare : share view reading index place rule =
      match (check view rule (sourceAt reading place text) index').1 with
      | .ok violations => { violations }
      | .error fault => { errors := [⟨rule.id, Files.placeText place, fault.line⟩] } := by
    rw [share, check_congr h]
    simp only [happlies, if_true, hread]
  rw [hshare, exit?_of_ok happlies hread, ← check_congr h, Check.applyRule]
  cases hcheck : check view rule (sourceAt reading place text) index' with
  | mk checked after =>
    rw [hcheck] at hkeeps
    cases checked with
    | ok violations => exact ⟨by simp [unlessExit, Outcome.plus, Outcome.ofShares], hkeeps⟩
    | error fault =>
      dsimp only
      cases fault.isExit with
      | true => exact ⟨rfl, hkeeps⟩
      | false =>
        exact ⟨by simp [unlessExit, Outcome.plus, Outcome.ofShares, sourceAt, Source.ofText], hkeeps⟩

/-- One file. -/
theorem checkFile (rules : List Rule) (place : Place) (outcome : Outcome)
    (h : answerOf view index' = answerOf view index) :
    Holds view index (checkFile view reading rules outcome index' place)
      (unlessExit (rules.findSome? (exit? view reading index place))
        (outcome.plus (.ofFiles view reading index rules [place]))) := by
  rw [Outcome.ofFiles_singleton, ← findSome?_exit?_filter, Check.checkFile]
  cases happlicable : rules.filter (·.appliesTo (Files.placeText place)) with
  | nil =>
    rw [counted_of_nil happlicable, List.map_nil]
    simp only [Bool.false_eq_true, if_false, Outcome.plus_nothing]
    exact ⟨rfl, h⟩
  | cons first applicable =>
    have happlies : ∀ rule ∈ first :: applicable,
        rule.appliesTo (Files.placeText place) = true := by
      rw [← happlicable]
      exact fun rule hmem => (List.mem_filter.mp hmem).2
    cases hread : view.readText (.ofPlace place) with
    | error fault =>
      have hstop : (first :: applicable).findSome? (exit? view reading index place) = none := by
        refine List.findSome?_eq_none_iff.mpr fun rule hmem => ?_
        rw [exit?, if_pos (happlies rule hmem), hread]
      rw [counted_of_error hread, hstop]
      simp only [Bool.false_eq_true, if_false]
      rw [Outcome.ofShares_unreadable hread _ happlies]
      exact ⟨by simp [unlessExit, Outcome.plus], h⟩
    | ok text =>
      rw [counted_of_ok hread (by simp [happlicable]), if_pos rfl, Outcome.plus_checked]
      let total (rules : List Rule) : Outcome :=
        .ofShares (rules.map (share view reading index place)) 0
      have hcons : ∀ rule rules, total (rule :: rules) = (total [rule]).plus (total rules) :=
        fun _ _ => Outcome.ofShares_cons _ _
      have hall := inTurn rfl hcons
        (fun rule hmem outcome index' h => applyRule hread (happlies rule hmem) outcome h)
        { outcome with filesChecked := outcome.filesChecked + 1 } h
      exact hall

end Holds

/-- The first fault with which a rule ends the program at one of the files. -/
def exitOf (view : View) (reading : Reading) (index : Option EntityIndex) (rules : List Rule)
    (places : List Place) : Option Fault :=
  places.findSome? fun place => rules.findSome? (exit? view reading index place)

/-- **A run finds the shares of all files and rules** and keeps what its index tells, unless it cannot be
told what stands at a target or a rule ends the program. -/
theorem holds_run (rules : List Rule) (targets : List String)
    (h : answerOf view index' = answerOf view index) :
    Holds view index (run view reading rules targets index')
      ((sources view targets).bind fun files =>
        unlessExit (exitOf view reading index rules files) (.ofFiles view reading index rules files)) := by
  rw [run]
  cases sources view targets with
  | error fault => exact ⟨rfl, h⟩
  | ok files =>
    have hrun : Holds view index (inTurn (checkFile view reading rules) {} index' files)
        (unlessExit (exitOf view reading index rules files)
          (Outcome.plus {} (.ofFiles view reading index rules files))) :=
      Holds.inTurn rfl (Outcome.ofFiles_cons rules)
        (fun place _ outcome index' h => Holds.checkFile rules place outcome h) {} h
    rwa [Outcome.nothing_plus] at hrun

theorem exitOf_eq_none_iff {rules : List Rule} {places : List Place} :
    exitOf view reading index rules places = none ↔
      ∀ place ∈ places, ∀ rule ∈ rules, ∀ fault, ¬ Exits view reading index place rule fault := by
  have hrule (place : Place) (rule : Rule) : exit? view reading index place rule = none ↔
      ∀ fault, ¬ Exits view reading index place rule fault := by
    simp only [Option.eq_none_iff_forall_ne_some, ne_eq, exit?_eq_some_iff]
  simp only [exitOf, List.findSome?_eq_none_iff, hrule]

theorem ofFiles_eq (rules : List Rule) (places : List Place) :
    Outcome.ofFiles view reading index rules places =
      { violations := places.flatMap fun place => rules.flatMap fun rule =>
          (share view reading index place rule).violations
        errors := places.flatMap fun place => rules.flatMap fun rule =>
          (share view reading index place rule).errors
        filesChecked := places.countP (counted view rules) } := by
  simp only [Outcome.ofFiles, Outcome.ofShares, List.flatMap_assoc, List.flatMap_map]

/-- **A run finds the shares of all files and rules**, in this order; each share is that of the rule and the
file alone. It finds nothing exactly if a name in a target is longer than a disk allows, or if a visitor ends
the program at a file that its rule looks at. A check gives all that the visitor reports, node by node, or the
fault that it raises at one. -/
theorem run_eq_shares (view : View) (reading : Reading) (rules : List Rule) (targets : List String)
    (index : Option EntityIndex) :
    let ran := (run view reading rules targets index).1
    (Ends (sources view targets) ↔ ∀ t ∈ targets, ¬ NameTooLong view (.ofString t)) ∧
      (∀ outcome, ran = .ok outcome ↔ ∃ files, sources view targets = .ok files ∧
        (∀ place ∈ files, ∀ rule ∈ rules, ∀ fault, ¬ Exits view reading index place rule fault) ∧
          outcome =
            { violations := files.flatMap fun place => rules.flatMap fun rule =>
                (share view reading index place rule).violations
              errors := files.flatMap fun place => rules.flatMap fun rule =>
                (share view reading index place rule).errors
              filesChecked := files.countP (counted view rules) }) ∧
        (∀ fault, ran = .error fault ↔ sources view targets = .error fault ∨
          ∃ files, sources view targets = .ok files ∧
            exitOf view reading index rules files = some fault) ∧
          ∀ rule source, rule.appliesTo source.path = true →
            (check view rule source index).1 =
                results rule source (answerOf view index) [] (Syntax.walk source.root) ∧
              ∀ fault, (check view rule source index).1 = .error fault ↔
                Raises rule source (answerOf view index) fault := by
  intro ran
  have hran : ran = (sources view targets).bind fun files =>
      unlessExit (exitOf view reading index rules files) (.ofFiles view reading index rules files) :=
    (holds_run rules targets rfl).outcome
  refine ⟨ends_sources_iff, fun outcome => ?_, fun fault => ?_, fun rule source happlies =>
    ⟨check_eq view rule source index happlies, check_eq_error_iff view rule source index happlies⟩⟩
  · rw [hran]
    cases sources view targets with
    | error fault => simp [Except.bind]
    | ok files =>
      simp only [Except.bind, unlessExit_eq_ok_iff, exitOf_eq_none_iff, ofFiles_eq, Except.ok.injEq,
        exists_eq_left']
  · rw [hran]
    cases sources view targets with
    | error cause => simp [Except.bind]
    | ok files => simp [Except.bind, unlessExit_eq_error_iff]

/-- **A target at which nothing stands may put an end to a run.** -/
theorem not_forall_ends_run :
    ¬ ∀ (view : View) (reading : Reading) (rules : List Rule) (targets : List String)
      (index : Option EntityIndex), Ends (run view reading rules targets index).1 := by
  intro hall
  let reading : Reading := fun _ _ => .mk "program" 0 0 none true []
  obtain ⟨t, -, -, hsources⟩ : ∃ t ∈ ["/" ++ endlessName], NameTooLong ⟨.empty, []⟩ (.ofString t) ∧
      sources ⟨.empty, []⟩ ["/" ++ endlessName] = .error (.file .longName (Path.ofString t).text) :=
    sources_of_nameTooLong ⟨_, List.mem_cons_self, nameTooLong_endless _⟩
  obtain ⟨outcome, houtcome⟩ := hall ⟨.empty, []⟩ reading [] ["/" ++ endlessName] none
  rw [(holds_run _ _ rfl).outcome, hsources] at houtcome
  cases houtcome

end Lintel.Check
