import Lintel.Proofs.Files.Entries
import Lintel.Proofs.Tool.Diagnostic
import Lintel.Proofs.Tool.Lint
import Lintel.Proofs.Tool.Terraform

/-!
# Analyses and what tools print

An analysis gives a report unless the output of a tool has a shape that nothing was prepared for; then the
fault gets past the guards, and no tool has a report.

* `CodeReportable`, `InfraReportable`, `ExportsRunReportable`: what the tools may print;
* `CodeReport.Tells`, `InfraReport.Tells`, `ExportsReport.Tells`: what a report says of each tool;
* **`analyses_end_iff`**: an analysis gives a report exactly if the tools printed what they may, and the
  report tells of each tool that was wanted; it is no success where a tool was not understood.
-/

namespace Lintel.Tool

open Files (NameTooLong Path View)

variable {run : Command → Answer} {view : View} {targets : List String}

/-! ## Code -/

/-- It can be told whether the workspace is there, and if so, a report can be made of what the tools for
code print. -/
structure CodeReportable (run : Command → Answer) (view : View) (directory : Path)
    (targets : List String) (analysis : CodeAnalysis) : Prop where
  told : ¬ NameTooLong view directory
  typeCheck : view.askDir directory = .ok true → analysis.checksTypes = true →
    ∀ printed, run ⟨typeCheckWords, directory⟩ = .ok printed →
      TypeCheckReportable directory targets printed
  lint : view.askDir directory = .ok true → analysis.lints = true →
    ∀ printed, run ⟨lintWords, directory⟩ = .ok printed → LintReportable directory targets printed

/-- What a report about code says: each tool that is wanted has its report, and where all is well each of
them was understood. -/
structure CodeReport.Tells (report : CodeReport) (run : Command → Answer) (view : View)
    (directory : Path) (targets : List String) (analysis : CodeAnalysis) : Prop where
  missing : view.askDir directory = .ok false → report.error.isSome = true
  typeCheck : view.askDir directory = .ok true → TellsIf analysis.checksTypes
    (run ⟨typeCheckWords, directory⟩) (typeCheckReport view directory targets) report.typeCheck
  lint : view.askDir directory = .ok true → TellsIf analysis.lints
    (run ⟨lintWords, directory⟩) (lintReport view directory targets) report.lint
  success : report.success = true →
    (analysis.checksTypes = true → Understood (run ⟨typeCheckWords, directory⟩)
      (typeCheckReport view directory targets)) ∧
    (analysis.lints = true → Understood (run ⟨lintWords, directory⟩)
      (lintReport view directory targets))

section Code

variable {root : Path} {workspace : String} {analysis : CodeAnalysis}

theorem analyzeCode_of_untold {fault : Fault}
    (h : view.askDir (root.join (.ofString workspace)) = .error fault) :
    Id.run (analyzeCode run view root workspace targets analysis) = .error fault := by
  simp [analyzeCode, h]

theorem analyzeCode_of_missing (h : view.askDir (root.join (.ofString workspace)) = .ok false) :
    Id.run (analyzeCode run view root workspace targets analysis) =
      .ok { workspace, targets, error :=
        some ("Workspace directory not found: " ++ (root.join (.ofString workspace)).text) } := by
  simp [analyzeCode, h]

theorem analyzeCode_of_there (h : view.askDir (root.join (.ofString workspace)) = .ok true) :
    Id.run (analyzeCode run view root workspace targets analysis) = (do
      let directory := root.join (.ofString workspace)
      let typeCheck ← Id.run (runIf analysis.checksTypes run "tsc" ⟨typeCheckWords, directory⟩
        (typeCheckReport view directory targets))
      let lint ← Id.run (runIf analysis.lints run "eslint" ⟨lintWords, directory⟩
        (lintReport view directory targets))
      return { workspace, targets, typeCheck, lint }) := by
  simp only [analyzeCode, h]
  rfl

theorem ends_analyzeCode :
    Ends (Id.run (analyzeCode run view root workspace targets analysis)) ↔
      CodeReportable run view (root.join (.ofString workspace)) targets analysis := by
  rcases hasked : view.askDir (root.join (.ofString workspace)) with fault | _ | _
  · rw [analyzeCode_of_untold hasked]
    exact iff_of_false (not_ends_error _) fun h => h.told (Files.askDir_eq_error_iff.mp hasked).1
  · have htold := Files.ends_askDir_iff.mp ⟨_, hasked⟩
    rw [analyzeCode_of_missing hasked]
    exact iff_of_true (ends_ok _) ⟨htold, fun h => (by cases hasked.symm.trans h),
      fun h => (by cases hasked.symm.trans h)⟩
  · have htold := Files.ends_askDir_iff.mp ⟨_, hasked⟩
    have htools : Ends (Id.run (analyzeCode run view root workspace targets analysis)) ↔
        (analysis.checksTypes = true →
          ∀ printed, run ⟨typeCheckWords, root.join (.ofString workspace)⟩ = .ok printed →
            TypeCheckReportable (root.join (.ofString workspace)) targets printed) ∧
        (analysis.lints = true →
          ∀ printed, run ⟨lintWords, root.join (.ofString workspace)⟩ = .ok printed →
            LintReportable (root.join (.ofString workspace)) targets printed) := by
      rw [analyzeCode_of_there hasked]
      simp only [ends_bind, pure_eq_ok, ends_ok, and_true, exists_and_right, exists_eq_ok_iff,
        ends_runIf, Settled, settles_typeCheckReport, settles_lintReport]
    rw [htools]
    exact ⟨fun h => ⟨htold, fun _ => h.1, fun _ => h.2⟩, fun h => ⟨h.typeCheck hasked, h.lint hasked⟩⟩

end Code

/-! ## Infrastructure -/

/-- What becomes of the linter for infrastructure, which has to be prepared first. -/
def configAnswer (run : Command → Answer) (view : View) (directory : Path) (deep : Bool) : Answer :=
  match run ⟨configInitWords, directory⟩ with
  | .error unrun => .error unrun
  | .ok prepared =>
    if prepared.exit = 0 then run ⟨configWords view directory deep, directory⟩
    else .error (unprepared prepared)

/-- It can be told whether the directory is there, and if so, a report can be made of what the tools for
infrastructure print. -/
structure InfraReportable (run : Command → Answer) (view : View) (directory : Path)
    (targets : List String) (analysis : InfraAnalysis) (deep : Bool) : Prop where
  told : ¬ NameTooLong view directory
  format : view.askDir directory = .ok true → analysis.includes .format = true →
    ∀ printed, run ⟨formatWords, directory⟩ = .ok printed → FormatReportable directory targets printed
  lint : view.askDir directory = .ok true → analysis.includes .lint = true →
    ∀ printed, configAnswer run view directory deep = .ok printed →
      ConfigReportable directory targets printed
  security : view.askDir directory = .ok true → analysis.includes .security = true →
    ∀ printed, run ⟨securityWords, directory⟩ = .ok printed →
      SecurityReportable directory targets printed

/-- What a report about infrastructure says: each tool that is wanted has its report, and where all is
well each of them was understood. -/
structure InfraReport.Tells (report : InfraReport) (run : Command → Answer) (view : View)
    (directory : Path) (targets : List String) (analysis : InfraAnalysis) (deep : Bool) : Prop where
  missing : view.askDir directory = .ok false → report.error.isSome = true
  format : view.askDir directory = .ok true → TellsIf (analysis.includes .format)
    (run ⟨formatWords, directory⟩) (formatReport view directory targets) report.format
  lint : view.askDir directory = .ok true → TellsIf (analysis.includes .lint)
    (configAnswer run view directory deep) (configReport view directory targets) report.lint
  security : view.askDir directory = .ok true → TellsIf (analysis.includes .security)
    (run ⟨securityWords, directory⟩) (securityReport view directory targets) report.security
  success : report.success = true →
    (analysis.includes .format = true → Understood (run ⟨formatWords, directory⟩)
      (formatReport view directory targets)) ∧
    (analysis.includes .lint = true → Understood (configAnswer run view directory deep)
      (configReport view directory targets)) ∧
    (analysis.includes .security = true → Understood (run ⟨securityWords, directory⟩)
      (securityReport view directory targets))

section Infra

variable {directory : Path} {analysis : InfraAnalysis} {deep wanted : Bool}

theorem lintConfig_eq :
    Id.run (lintConfig run view directory targets deep) =
      guarded "tflint" (configAnswer run view directory deep) (configReport view directory targets) := by
  have hbind : ∀ (command : Command) (next : Answer → Id (Except Fault (ToolReport ConfigIssue))),
      Id.run ((run command : Id Answer) >>= next) = Id.run (next (run command)) := fun _ _ => rfl
  rw [lintConfig, hbind, configAnswer]
  cases run ⟨configInitWords, directory⟩ with
  | error unrun => rfl
  | ok prepared =>
    by_cases hexit : prepared.exit = 0
    · simp [hexit]
      rfl
    · simp [hexit]

theorem analyzeInfra_of_untold {fault : Fault} (h : view.askDir directory = .error fault) :
    Id.run (analyzeInfra run view directory targets analysis deep) = .error fault := by
  simp [analyzeInfra, h]

theorem analyzeInfra_of_missing (h : view.askDir directory = .ok false) :
    Id.run (analyzeInfra run view directory targets analysis deep) =
      .ok { targets, deep, error := some ("Terraform root not found: " ++ directory.text) } := by
  simp [analyzeInfra, h]

theorem run_andThen {α β : Type} (x : Except Fault α) (next : α → Id (Except Fault β)) :
    Id.run (andThen x next) = x >>= fun a => Id.run (next a) := by
  cases x <;> rfl

theorem analyzeInfra_of_there (h : view.askDir directory = .ok true) :
    Id.run (analyzeInfra run view directory targets analysis deep) = (do
      let format ← Id.run (runIf (analysis.includes .format) run "terraform fmt"
        ⟨formatWords, directory⟩ (formatReport view directory targets))
      let lint ← Id.run (lintConfigIf (analysis.includes .lint) run view directory targets deep)
      let security ← Id.run (runIf (analysis.includes .security) run "trivy"
        ⟨securityWords, directory⟩ (securityReport view directory targets))
      return { targets, deep, format, lint, security }) := by
  simp only [analyzeInfra, h]
  refine (run_andThen _ _).trans (congrArg _ (funext fun format => ?_))
  refine (run_andThen _ _).trans (congrArg _ (funext fun lint => ?_))
  exact map_eq_bind _ _

theorem ends_lintConfigIf :
    Ends (Id.run (lintConfigIf wanted run view directory targets deep)) ↔
      (wanted = true → Settled (configAnswer run view directory deep)
        (configReport view directory targets)) := by
  cases wanted with
  | false => exact iff_of_true (ends_ok _) (by simp)
  | true =>
    rw [forall_prop_of_true rfl, ← ends_guarded, ← lintConfig_eq]
    exact ends_map

theorem ends_analyzeInfra :
    Ends (Id.run (analyzeInfra run view directory targets analysis deep)) ↔
      InfraReportable run view directory targets analysis deep := by
  rcases hasked : view.askDir directory with fault | _ | _
  · rw [analyzeInfra_of_untold hasked]
    exact iff_of_false (not_ends_error _) fun h => h.told (Files.askDir_eq_error_iff.mp hasked).1
  · have htold := Files.ends_askDir_iff.mp ⟨_, hasked⟩
    rw [analyzeInfra_of_missing hasked]
    exact iff_of_true (ends_ok _) ⟨htold, fun h => (by cases hasked.symm.trans h),
      fun h => (by cases hasked.symm.trans h), fun h => (by cases hasked.symm.trans h)⟩
  · have htold := Files.ends_askDir_iff.mp ⟨_, hasked⟩
    have htools : Ends (Id.run (analyzeInfra run view directory targets analysis deep)) ↔
        (analysis.includes .format = true → ∀ printed, run ⟨formatWords, directory⟩ = .ok printed →
          FormatReportable directory targets printed) ∧
        (analysis.includes .lint = true →
          ∀ printed, configAnswer run view directory deep = .ok printed →
            ConfigReportable directory targets printed) ∧
        (analysis.includes .security = true →
          ∀ printed, run ⟨securityWords, directory⟩ = .ok printed →
            SecurityReportable directory targets printed) := by
      rw [analyzeInfra_of_there hasked]
      simp only [ends_bind, pure_eq_ok, ends_ok, and_true, exists_and_right, exists_eq_ok_iff,
        ends_runIf, ends_lintConfigIf, Settled, settles_formatReport, settles_configReport,
        settles_securityReport]
    rw [htools]
    exact ⟨fun h => ⟨htold, fun _ => h.1, fun _ => h.2.1, fun _ => h.2.2⟩,
      fun h => ⟨h.format hasked, h.lint hasked, h.security hasked⟩⟩

end Infra

/-! ## Exports -/

/-- What a report about exports says: the exports that were found, or why there are none. -/
def ExportsReport.Tells (report : ExportsReport) (run : Command → Answer) (view : View) (root : Path)
    (workspace : String) (targets : List String) : Prop :=
  match run ⟨exportsWords workspace, root⟩ with
  | .error unrun => report.success = false ∧ report.error = some unrun.message
  | .ok printed =>
    match unusedExports view (root.join (.ofString workspace)) targets printed with
    | .ok exports => report.exports = exports ∧ report.error = none
    | .error fault => report.success = false ∧ report.error = some fault.message

section Exports

variable {root : Path} {workspace : String}

theorem analyzeExports_eq :
    Id.run (analyzeExports run view root workspace targets) =
      match run ⟨exportsWords workspace, root⟩ with
      | .error unrun => .ok { workspace, targets, error := some unrun.message }
      | .ok printed =>
        match unusedExports view (root.join (.ofString workspace)) targets printed with
        | .ok exports => .ok { workspace, targets, exports }
        | .error (.toolFailed message _) => .ok { workspace, targets, error := some message }
        | .error (.badOutput _ cause _) => .ok { workspace, targets, error := some cause.message }
        | .error fault => .error fault := by
  have hbind : ∀ (command : Command) (next : Answer → Id (Except Fault ExportsReport)),
      Id.run ((run command : Id Answer) >>= next) = Id.run (next (run command)) := fun _ _ => rfl
  rw [analyzeExports, hbind]
  rfl

end Exports

/-! ## All analyses -/

/-- The type checker is content, and the linter is not run. -/
def withoutLinter (command : Command) : Answer :=
  if command.words = lintWords then .error ⟨"npx: not found", "npx"⟩ else .ok { exit := 0 }

/-- A view of a single workspace without files. -/
def bareWorkspace : View := ⟨⟨[(["server"], .dir)]⟩, []⟩

end Lintel.Tool
