import Lintel.Proofs.Check.Order
import Lintel.Proofs.Rule.Reach

/-!
# Files in other directories

Where a project lies should not matter for what is found in it. A built-in rule finds in a file what it finds
in the same file in no directory, unless it overlooks the directory.

* `Source.moved`, `Violation.moved`: the same file at another path, and what is found there;
* `results_moved`: visits that do not depend on the path report the same at both;
* **`check_directory`**: what a built-in rule finds in a file of a directory;
* **`check_moved_iff`**: exactly when it finds the same in two directories; `not_forall_check_moved`: it need
  not.
-/

namespace Lintel

open Files (View)
open Project (EntityIndex)
open Rule (Finding Violation Visit)
open Syntax (Cursor Node Source)
open Text (EndsWithSlash directory lastComponent)

/-- The same text and tree at another path. -/
def Syntax.Source.moved (source : Source) (path : String) : Source := { source with path }

/-- The same violation in another file. -/
def Rule.Violation.moved (path : String) (violation : Violation) : Violation :=
  { violation with file := path }

namespace Check

variable {view : View} {rule : Rule} {source : Source} {index : Option EntityIndex}
  {answer : Option (Except Fault (List String))} {p q : String}

/-! ## Visits at two paths -/

theorem result_moved {visit : Visit} (h : visit.Blind) (before : List Violation) :
    visit.result answer (rule.violation (source.moved p)) (before.map (·.moved p)) =
      (visit.result answer (rule.violation (source.moved q)) before).map
        (List.map (·.moved p)) := by
  rw [Visit.result_of_blind h, Visit.result_of_blind h]
  cases visit.findings answer with
  | error fault => rfl
  | ok found =>
    change Except.ok _ = Except.ok _
    rw [List.map_append, List.map_map]
    rfl

/-- **Visits that do not depend on the path** report the same at both paths. -/
theorem results_moved (hrule : rule.Within)
    (hvisitor : rule.visitor (source.moved p) = rule.visitor (source.moved q))
    (before : List Violation) (cursors : List Cursor) :
    results rule (source.moved p) answer (before.map (·.moved p)) cursors =
      (results rule (source.moved q) answer before cursors).map (List.map (·.moved p)) := by
  induction cursors generalizing before with
  | nil => rfl
  | cons c cursors ih =>
    have hblind : (rule.visitor (source.moved q) c).Blind := by
      rw [hrule.nodeOnly]
      exact hrule.blind _ _
    rw [results_cons, results_cons, hvisitor, result_moved hblind]
    cases (rule.visitor (source.moved q) c).result answer (rule.violation (source.moved q)) before with
    | error fault => rfl
    | ok after => exact ih after

theorem results_of_done (hvisitor : ∀ c, rule.visitor source c = .done) (before : List Violation)
    (cursors : List Cursor) : results rule source answer before cursors = .ok before := by
  induction cursors with
  | nil => rfl
  | cons c cursors ih =>
    rw [results_cons, hvisitor c]
    exact ih

theorem check_of_not_applies (source : Source) (h : ¬ rule.appliesTo source.path = true) :
    (check view rule source index).1 = .ok [] := by
  unfold check
  rw [if_neg h]

/-! ## Built-in rules in directories -/

variable {dir name : String}

theorem visitConstruction_of_mayConstruct (h : Rule.mayConstruct source.path = true) (c : Cursor) :
    Rule.visitConstruction source c = .done := by
  unfold Rule.visitConstruction
  simp [h]

theorem visitConstruction_moved (h : Rule.mayConstruct p = Rule.mayConstruct q) :
    Rule.visitConstruction (source.moved p) = Rule.visitConstruction (source.moved q) := by
  funext c
  unfold Rule.visitConstruction
  have hpath : Rule.mayConstruct (source.moved p).path = Rule.mayConstruct (source.moved q).path := h
  rw [hpath]
  rfl

theorem visitor_directory (hrule : rule ∈ Rule.builtin) (hdir : EndsWithSlash dir.toList)
    (hlooks : ¬ rule.Overlooks dir) :
    rule.visitor (source.moved (dir ++ name)) = rule.visitor (source.moved name) := by
  simp only [Rule.builtin, List.mem_cons, List.not_mem_nil, or_false] at hrule
  rcases hrule with rfl | rfl | rfl | rfl | rfl | rfl
  · rfl
  · rfl
  · rfl
  · refine visitConstruction_moved ?_
    unfold Rule.Overlooks at hlooks
    simp only [true_and, not_or, Bool.not_eq_true] at hlooks
    rw [Rule.mayConstruct_append hdir, hlooks.2.1, hlooks.2.2]
    rfl
  · rfl
  · rfl

theorem check_of_overlooks (hrule : rule ∈ Rule.builtin) (hdir : EndsWithSlash dir.toList)
    (h : rule.Overlooks dir) :
    (check view rule (source.moved (dir ++ name)) index).1 = .ok [] := by
  by_cases happlies : rule.appliesTo (dir ++ name) = true
  · have hlooks := (Rule.appliesTo_append hrule hdir).mp happlies
    obtain ⟨hid, hholds⟩ := h.resolve_left hlooks.2
    have hmay : Rule.mayConstruct (dir ++ name) = true := by
      rw [Rule.mayConstruct_append hdir, Bool.or_eq_true, Bool.or_eq_true]
      exact .inl hholds
    have hvisitor : ∀ c, rule.visitor (source.moved (dir ++ name)) c = .done := by
      simp only [Rule.builtin, List.mem_cons, List.not_mem_nil, or_false] at hrule
      rcases hrule with rfl | rfl | rfl | rfl | rfl | rfl
      · exact absurd hid (by decide)
      · exact absurd hid (by decide)
      · exact absurd hid (by decide)
      · exact visitConstruction_of_mayConstruct hmay
      · exact absurd hid (by decide)
      · exact absurd hid (by decide)
    rw [check_eq view rule (source.moved (dir ++ name)) index happlies]
    exact results_of_done hvisitor [] _
  · exact check_of_not_applies (source.moved (dir ++ name)) happlies

/-- **What a built-in rule finds in a file of a directory**: nothing if it overlooks the directory, and else
what it finds in the file without the directory. -/
theorem check_directory (view : View) (hrule : rule ∈ Rule.builtin) (source : Source)
    (index : Option EntityIndex) (hdir : EndsWithSlash dir.toList) (name : String) :
    (check view rule (source.moved (dir ++ name)) index).1 =
      if rule.Overlooks dir then .ok []
      else (check view rule (source.moved name) index).1.map (List.map (·.moved (dir ++ name))) := by
  split_ifs with hlooks
  · exact check_of_overlooks hrule hdir hlooks
  · have hsame : rule.appliesTo (dir ++ name) = true ↔ rule.appliesTo name = true := by
      rw [Rule.appliesTo_append hrule hdir]
      exact ⟨And.left, fun h => ⟨h, fun hfeed => hlooks (.inl hfeed)⟩⟩
    by_cases happlies : rule.appliesTo name = true
    · rw [check_eq view rule (source.moved (dir ++ name)) index (hsame.mpr happlies),
        check_eq view rule (source.moved name) index happlies]
      exact results_moved (Rule.of_mem_builtin hrule).1 (visitor_directory hrule hdir hlooks) [] _
    · have hnot : ¬ rule.appliesTo (dir ++ name) = true := fun h => happlies (hsame.mp h)
      rw [check_of_not_applies (source.moved (dir ++ name)) hnot,
        check_of_not_applies (source.moved name) happlies]
      rfl

/-! ## Two directories -/

/-- What is found, apart from the file that it is found in. -/
def apartFromFile (found : Except Fault (List Violation)) : Except Fault (List Violation) :=
  found.map (List.map (·.moved ""))

theorem apartFromFile_moved (found : Except Fault (List Violation)) (path : String) :
    apartFromFile (found.map (List.map (·.moved path))) = apartFromFile found := by
  cases found with
  | error fault => rfl
  | ok violations =>
    change Except.ok _ = Except.ok _
    rw [List.map_map]
    rfl

theorem apartFromFile_eq_nil (found : Except Fault (List Violation)) :
    apartFromFile found = .ok [] ↔ found = .ok [] := by
  cases found with
  | error fault => exact ⟨fun h => (nomatch h), fun h => (nomatch h)⟩
  | ok violations => simp [apartFromFile, Except.map]

theorem apartFromFile_check (view : View) (hrule : rule ∈ Rule.builtin) (source : Source)
    (index : Option EntityIndex) (path : String) :
    apartFromFile (check view rule (source.moved path) index).1 =
      if rule.Overlooks (directory path) then .ok []
      else apartFromFile (check view rule (source.moved (lastComponent path)) index).1 := by
  have hcheck := check_directory view hrule source index (Text.endsWithSlash_directory path)
    (lastComponent path)
  rw [Text.directory_append_lastComponent] at hcheck
  rw [hcheck]
  split_ifs with hlooks
  · rfl
  · exact apartFromFile_moved _ _

/-- **A built-in rule finds the same in a file at two paths with one name**, apart from the file, exactly if
it overlooks both directories or neither, or if it finds nothing in the file without a directory. What it
finds at a path is always what it finds without a directory, or nothing if it overlooks the directory. -/
theorem check_moved_iff (view : View) {rule : Rule} (hrule : rule ∈ Rule.builtin) (source : Source)
    (index : Option EntityIndex) {p q : String} (hname : lastComponent p = lastComponent q) :
    let found := fun path => (check view rule (source.moved path) index).1
    (apartFromFile (found p) = apartFromFile (found q) ↔
      ((rule.Overlooks (directory p) ↔ rule.Overlooks (directory q)) ∨
        found (lastComponent p) = .ok [])) ∧
    ∀ path, found path = if rule.Overlooks (directory path) then .ok []
      else (found (lastComponent path)).map (List.map (·.moved path)) := by
  intro found
  constructor
  · have hp := apartFromFile_check view hrule source index p
    have hq := apartFromFile_check view hrule source index q
    rw [← hname] at hq
    have hnothing := apartFromFile_eq_nil (found (lastComponent p))
    change apartFromFile (found p) = _ at hp
    change apartFromFile (found q) = _ at hq
    rw [hp, hq]
    by_cases hoverP : rule.Overlooks (directory p) <;> by_cases hoverQ : rule.Overlooks (directory q)
    · simp [hoverP, hoverQ]
    · rw [if_pos hoverP, if_neg hoverQ, eq_comm, hnothing]
      simp [hoverP, hoverQ]
    · rw [if_neg hoverP, if_pos hoverQ, hnothing]
      simp [hoverP, hoverQ]
    · simp [hoverP, hoverQ]
  · intro path
    have hcheck := check_directory view hrule source index (Text.endsWithSlash_directory path)
      (lastComponent path)
    rw [Text.directory_append_lastComponent] at hcheck
    exact hcheck

/-! ## A project below a directory that looks like a test -/

/-- A use case that makes an entity with its constructor. -/
def constructing : Source := .ofText "user-use-case.ts" "new User();"
  (.mk "program" 0 11 none true [.mk "new_expression" 0 10 none true
    [.mk "identifier" 4 8 (some "constructor") true []]])

/-- The path of the use case in a directory. -/
def ordinaryPath : String := "/home/api/user-use-case.ts"

/-- The path of the use case in another directory. -/
def testLikePath : String := "/home/api.test.d/user-use-case.ts"

/-- **Where a project lies may change what is found in it.** -/
theorem not_forall_check_moved :
    ¬ ∀ rule ∈ Rule.builtin, ∀ (view : View) (source : Source) (index : Option EntityIndex)
        (p q : String), lastComponent p = lastComponent q →
      apartFromFile (check view rule (source.moved p) index).1 =
        apartFromFile (check view rule (source.moved q) index).1 := by
  intro hall
  have hsame := hall Rule.entityFromPattern (by simp [Rule.builtin]) ⟨.empty, []⟩ constructing none
    ordinaryPath testLikePath (by decide +kernel)
  have hcounts := congrArg (fun found => found.toOption.map List.length) hsame
  revert hcounts
  decide +kernel

theorem check_moved_iff_testLike :
    let rule := Rule.entityFromPattern
    let found := fun path => (check ⟨.empty, []⟩ rule (constructing.moved path) none).1
    rule ∈ Rule.builtin ∧ lastComponent ordinaryPath = lastComponent testLikePath ∧
      ¬ rule.Overlooks (directory ordinaryPath) ∧ rule.Overlooks (directory testLikePath) ∧
      found (lastComponent ordinaryPath) ≠ .ok [] ∧
      apartFromFile (found ordinaryPath) ≠ apartFromFile (found testLikePath) := by
  intro rule found
  have hrule : rule ∈ Rule.builtin := by simp [rule, Rule.builtin]
  have hname : lastComponent ordinaryPath = lastComponent testLikePath := by decide +kernel
  have hlooks : ¬ rule.Overlooks (directory ordinaryPath) := by decide +kernel
  have hover : rule.Overlooks (directory testLikePath) := by decide +kernel
  have hfinds : found (lastComponent ordinaryPath) ≠ .ok [] := by
    intro hnothing
    have hcounts := congrArg (fun found => found.toOption.map List.length) hnothing
    revert hcounts
    decide +kernel
  refine ⟨hrule, hname, hlooks, hover, hfinds, fun hsame => ?_⟩
  have hiff := (check_moved_iff ⟨.empty, []⟩ hrule constructing none hname).1.mp hsame
  rcases hiff with hboth | hnothing
  · exact hlooks (hboth.mpr hover)
  · exact hfinds hnothing

end Check

end Lintel
