import Lintel.Proofs.Text.Blank
import Lintel.Proofs.Tool.InfraExact

/-!
# Failures and their reasons

A report that failed has a reason, a message or an issue that stands in the way, and one that passed has
none (`ToolReport.Explained`).

* `Explains`: what a judgement that rejects its output says is never empty;
* `explained_configReport_iff`: the linter for infrastructure may name a single error without a text; if
  no issue is an error then, its report failed without a reason (`ConfigMute`);
* **`analyses_explained`**: this is the only exception, over all tools and whatever they print.
-/

namespace Lintel.Tool

open Files (Path View)

variable {issue : Type} {tool : String} {answer : Answer}
  {judge : Printed → Except Fault (ToolReport issue)} {report : ToolReport issue}

/-- The report failed exactly if it has a message or an issue that stands in the way. -/
def ToolReport.Explained (blocks : issue → Bool) (report : ToolReport issue) : Prop :=
  report.passed = false ↔
    (∃ text, report.error = some text ∧ text ≠ "") ∨ ∃ i ∈ report.issues, blocks i = true

/-- If the computation fails and a report can tell of it, there is something to tell. -/
abbrev Explains {α : Type} (x : Except Fault α) : Prop :=
  FailsOnlyWith (fun fault => fault.IsReported → fault.message ≠ "") x

section Explains

variable {α : Type} {x : Except Fault α} {printed : Printed}

theorem explains_of_escapes (h : Escapes x) : Explains x := rejects_of_escapes h

theorem explains_badOutput {cause : BadOutput} {output : String} (h : cause.message ≠ "") :
    Explains (.error (.badOutput tool cause output) : Except Fault α) := by
  intro fault hfault _
  cases hfault
  exact h

theorem explains_readOutput {label output : String} : Explains (readOutput label tool output) := by
  rw [readOutput]
  split_ifs
  · exact explains_badOutput (by simp [BadOutput.message])
  · cases Json.parse output.toList with
    | ok value => exact failsOnlyWith_ok _
    | error flaw =>
      cases flaw with
      | longInteger digits => exact failsOnlyWith_error.mpr fun h => h.elim
      | misplaced fault => exact explains_badOutput (by simp [BadOutput.message])

theorem explains_withOutput (h : Explains x) : Explains (withOutput printed x) := by
  cases x with
  | ok a => exact h
  | error fault =>
    have hfault := failsOnlyWith_error.mp h
    cases fault <;> exact failsOnlyWith_error.mpr hfault

end Explains

/-! ## Guards -/

theorem explained_failure {blocks : issue → Bool} {error output : String} (h : error ≠ "") :
    (ToolReport.failure tool error output : ToolReport issue).Explained blocks :=
  iff_of_true rfl (.inl ⟨error, rfl, h⟩)

theorem Judged.explained {blocks : issue → Bool} (h : Judged tool judge answer report)
    (hunrun : ∀ reason, answer = .error reason → reason.message ≠ "")
    (hrejects : ∀ printed, Explains (judge printed))
    (hown : ∀ printed, answer = .ok printed → judge printed = .ok report → report.Explained blocks) :
    report.Explained blocks := by
  cases h with
  | unrun reason => exact explained_failure (hunrun reason rfl)
  | rejected hjudge hreported => exact explained_failure (hrejects _ _ hjudge hreported)
  | own hjudge => exact hown _ rfl hjudge

theorem explained_of_issues {blocks : issue → Bool} (herror : report.error = none)
    (hpassed : report.passed = !report.issues.any blocks) : report.Explained blocks := by
  simp [ToolReport.Explained, herror, hpassed]

theorem explained_of_isEmpty (herror : report.error = none)
    (hpassed : report.passed = report.issues.isEmpty) : report.Explained fun _ => true := by
  refine explained_of_issues herror (hpassed.trans ?_)
  cases report.issues <;> simp

/-! ## Judgements -/

section Judgements

variable {view : View} {directory : Path} {targets : List String} {printed : Printed}

theorem explains_typeCheckReport : Explains (typeCheckReport view directory targets printed) := by
  refine rejects_typeCheckReport.imp fun fault hsilent hreported => ?_
  rw [hsilent hreported]
  exact Text.append_ne_empty (Text.append_ne_empty (by decide) _) _

theorem explained_typeCheckReport {own : ToolReport Diagnostic}
    (h : typeCheckReport view directory targets printed = .ok own) : own.Explained fun _ => true := by
  by_cases hexit : printed.exit = 0
  · have hown : typeCheckReport view directory targets printed = .ok _ := if_pos (by simpa using hexit)
    cases hown.symm.trans h
    exact explained_of_isEmpty rfl rfl
  · rw [typeCheckReport_of_ne hexit] at h
    obtain ⟨found, -, h⟩ := bind_eq_ok.mp h
    split_ifs at h
    obtain ⟨kept, -, h⟩ := bind_eq_ok.mp h
    cases h
    exact explained_of_isEmpty rfl rfl

theorem explains_formatReport : Explains (formatReport view directory targets printed) := by
  refine rejects_formatReport.imp fun fault hsilent hreported => ?_
  rw [hsilent hreported]
  exact Text.append_ne_empty (Text.append_ne_empty (Text.append_ne_empty (by decide) _) _) _

theorem explained_formatReport {own : ToolReport FormatIssue}
    (h : formatReport view directory targets printed = .ok own) : own.Explained fun _ => true := by
  by_cases hexit : printed.exit = 0
  · have hown : formatReport view directory targets printed = .ok _ := if_pos (by simpa using hexit)
    cases hown.symm.trans h
    exact explained_of_isEmpty rfl rfl
  · rw [formatReport_of_ne hexit] at h
    split_ifs at h
    obtain ⟨kept, -, h⟩ := bind_eq_ok.mp h
    cases h
    exact explained_of_isEmpty rfl rfl

theorem explains_lintReport : Explains (lintReport view directory targets printed) := by
  have hentry : ∀ entry, Explains (LintIssue.ofEntry entry) := by
    intro entry
    cases hobject : entry.isObject with
    | true => exact explains_of_escapes (LintIssue.escapes_ofEntry hobject)
    | false =>
      rw [LintIssue.ofEntry_of_not_isObject hobject]
      exact explains_badOutput (by simp [BadOutput.message])
  have houtput : Explains (LintIssue.ofOutput printed.out) := by
    refine explains_readOutput.bind fun value => ?_
    cases value with
    | arr entries => exact (FailsOnlyWith.mapM fun entry _ => hentry entry).bind fun _ => failsOnlyWith_ok _
    | _ => exact explains_badOutput (by simp [BadOutput.message])
  exact (explains_withOutput houtput).bind fun found =>
    (explains_of_escapes escapes_narrowTo).bind fun _ => failsOnlyWith_ok _

theorem explained_lintReport {own : ToolReport LintIssue}
    (h : lintReport view directory targets printed = .ok own) : own.Explained LintIssue.isError := by
  obtain ⟨found, -, h⟩ := bind_eq_ok.mp h
  obtain ⟨issues, -, h⟩ := bind_eq_ok.mp h
  cases h
  exact explained_of_issues rfl rfl

theorem explains_securityReport : Explains (securityReport view directory targets printed) := by
  have houtput : Explains (SecurityIssue.ofOutput printed.out) := by
    refine explains_readOutput.bind fun value => ?_
    cases value with
    | obj members => exact explains_of_escapes SecurityIssue.escapes_ofReport
    | _ => exact explains_badOutput (by simp [BadOutput.message])
  exact (explains_withOutput houtput).bind fun found =>
    (explains_of_escapes escapes_narrowTo).bind fun _ => failsOnlyWith_ok _

theorem explained_securityReport {own : ToolReport SecurityIssue}
    (h : securityReport view directory targets printed = .ok own) : own.Explained fun _ => true := by
  obtain ⟨found, -, h⟩ := bind_eq_ok.mp h
  obtain ⟨issues, -, h⟩ := bind_eq_ok.mp h
  cases h
  exact explained_of_isEmpty rfl rfl

theorem explains_configReport : Explains (configReport view directory targets printed) := by
  have houtput : Explains (ConfigIssue.ofOutput printed.out) := by
    refine explains_readOutput.bind fun value => ?_
    cases value with
    | obj members => exact explains_of_escapes ConfigIssue.escapes_ofReport
    | _ => exact explains_badOutput (by simp [BadOutput.message])
  exact (explains_withOutput houtput).bind fun found =>
    (explains_of_escapes escapes_narrowTo).bind fun _ =>
      (explains_of_escapes escapes_joinedErrors).bind fun _ => failsOnlyWith_ok _

/-! ## Errors of the linter for infrastructure -/

theorem intercalate_eq_empty_iff {separator : String} (h : separator ≠ "") {texts : List String} :
    separator.intercalate texts = "" ↔ texts = [] ∨ texts = [""] := by
  match texts with
  | [] => simp
  | [text] => simp
  | first :: second :: rest =>
    rw [String.intercalate_cons_cons]
    simp [String.append_eq_empty_iff, h]

theorem textsFrom_eq_ok {index : ℕ} {errors : List Json} {texts : List String}
    (h : textsFrom index errors = .ok texts) : errors = texts.map .str := by
  induction errors generalizing index texts with
  | nil =>
    cases h
    rfl
  | cons error errors ih =>
    cases error with
    | str text =>
      obtain ⟨rest, hrest, rfl⟩ := map_eq_ok.mp h
      rw [ih hrest, List.map_cons]
    | _ => cases h

theorem joinedErrors_eq_ok {errors : List Json} {error : Option String}
    (h : joinedErrors errors = .ok error) :
    (∃ text, error = some text ∧ text ≠ "") ↔ errors ≠ [] ∧ errors ≠ [.str ""] := by
  obtain ⟨texts, htexts, h⟩ := bind_eq_ok.mp h
  cases h
  have hempty : "; ".intercalate texts = "" ↔ texts = [] ∨ texts = [""] :=
    intercalate_eq_empty_iff (by decide)
  obtain rfl := textsFrom_eq_ok htexts
  have hsingle : texts.map Json.str = [.str ""] ↔ texts = [""] := by
    match texts with
    | [] => simp
    | [text] => simp
    | _ :: _ :: _ => simp
  rw [Ne, Ne, hsingle, List.map_eq_nil_iff, ← not_or, ← hempty]
  simp only [String.isEmpty_iff]
  split_ifs with hjoined <;> simp [hjoined]

/-- The only error that the linter names has no text, and no issue is left that is an error. -/
def ConfigMute (printed : Printed) (report : ToolReport ConfigIssue) : Prop :=
  (∃ members error, Prints printed.out (.obj members) ∧
    ((Json.obj members).listIn "errors").items = [error] ∧
      error.memberOr "message" (.str "") = .str "") ∧
  ∀ i ∈ report.issues, i.severity ≠ "error"

theorem explained_iff_of_errors {errors : List Json} {own : ToolReport ConfigIssue}
    (hpassed : own.passed = (errors.isEmpty && !own.issues.any (·.severity == "error")))
    (herror : (∃ text, own.error = some text ∧ text ≠ "") ↔ errors ≠ [] ∧ errors ≠ [.str ""]) :
    own.Explained (·.severity == "error") ↔
      ¬ (errors = [.str ""] ∧ ∀ i ∈ own.issues, i.severity ≠ "error") := by
  have hfailed : own.passed = false ↔
      errors ≠ [] ∨ ∃ i ∈ own.issues, (i.severity == "error") = true := by
    rw [hpassed]
    cases errors <;> simp
  have hnone : (∀ i ∈ own.issues, i.severity ≠ "error") ↔
      ¬ ∃ i ∈ own.issues, (i.severity == "error") = true := by simp
  rw [ToolReport.Explained, herror, hfailed, hnone]
  by_cases hblocked : ∃ i ∈ own.issues, (i.severity == "error") = true
  · simp only [hblocked, or_true, not_true_eq_false, and_false, not_false_eq_true]
  · simp only [hblocked, or_false, not_false_eq_true, and_true]
    exact ⟨fun h hmute => (h.mp (hmute ▸ List.cons_ne_nil _ _)).2 hmute,
      fun h => ⟨fun hne => ⟨hne, h⟩, And.left⟩⟩

theorem explained_configReport_iff {own : ToolReport ConfigIssue}
    (h : configReport view directory targets printed = .ok own) :
    own.Explained (·.severity == "error") ↔ ¬ ConfigMute printed own := by
  obtain ⟨⟨found, errors⟩, hfound, h⟩ := bind_eq_ok.mp h
  obtain ⟨issues, -, h⟩ := bind_eq_ok.mp h
  obtain ⟨error, herror, h⟩ := bind_eq_ok.mp h
  cases h
  obtain ⟨members, hprints, hreport⟩ := ConfigIssue.prints_of_ofOutput (withOutput_eq_ok.mp hfound)
  have hitems := (ConfigIssue.tells_of_ofReport hreport).2
  have hmute : (∃ members error, Prints printed.out (.obj members) ∧
      ((Json.obj members).listIn "errors").items = [error] ∧
        error.memberOr "message" (.str "") = .str "") ↔ errors = [.str ""] := by
    rw [hitems, List.map_eq_singleton_iff]
    constructor
    · rintro ⟨others, error, hothers, hsingle⟩
      cases hothers.2.symm.trans hprints.2
      exact ⟨error, hsingle⟩
    · rintro ⟨error, hsingle⟩
      exact ⟨members, error, hprints, hsingle⟩
  rw [ConfigMute, hmute]
  exact explained_iff_of_errors rfl (joinedErrors_eq_ok herror)

theorem escapes_configReport {members : List (String × Json)}
    (hprints : Prints printed.out (.obj members)) :
    Escapes (configReport view directory targets printed) := by
  have houtput : Escapes (ConfigIssue.ofOutput printed.out) := by
    rw [ConfigIssue.ofOutput_of_prints hprints]
    exact ConfigIssue.escapes_ofReport
  have hwith : withOutput printed (ConfigIssue.ofOutput printed.out) =
      ConfigIssue.ofOutput printed.out := by
    cases hfound : ConfigIssue.ofOutput printed.out with
    | ok found => rfl
    | error fault =>
      have hfault := houtput fault hfound
      cases fault <;> first
        | rfl
        | exact absurd trivial hfault
  rw [configReport, hwith]
  exact houtput.bind fun found => escapes_narrowTo.bind fun _ =>
    escapes_joinedErrors.bind fun _ => failsOnlyWith_ok _

theorem explained_config_iff {run : Command → Answer} {deep : Bool} {own : ToolReport ConfigIssue}
    (hunrun : ∀ command reason, run command = .error reason → reason.message ≠ "")
    (h : Judged "tflint" (configReport view directory targets) (configAnswer run view directory deep)
      own) :
    own.Explained (·.severity == "error") ↔
      ∀ printed, configAnswer run view directory deep = .ok printed → ¬ ConfigMute printed own := by
  generalize hanswer : configAnswer run view directory deep = answer at h
  cases h with
  | unrun reason =>
    refine iff_of_true (explained_failure ?_) nofun
    rw [configAnswer] at hanswer
    split at hanswer
    · next own hown =>
      cases hanswer
      exact hunrun _ _ hown
    · split_ifs at hanswer
      · exact hunrun _ _ hanswer
      · cases hanswer
        exact Text.append_ne_empty (by decide) _
  | @rejected printed fault hjudge hreported =>
    refine iff_of_true (explained_failure (explains_configReport _ hjudge hreported)) ?_
    rintro _ hprinted ⟨⟨members, error, hprints, -⟩, -⟩
    cases hprinted
    exact escapes_configReport hprints fault hjudge hreported
  | @own printed _ hjudge =>
    rw [explained_configReport_iff hjudge]
    exact ⟨fun hmute _ hprinted => Except.ok.inj hprinted ▸ hmute, fun h => h printed rfl⟩

end Judgements

/-! ## Analyses -/

/-- **A report that failed has a reason, and one that passed has none**, whatever the commands do; the
linter for infrastructure is explained exactly if it does not name a single error without a text, with no
issue that is an error. -/
theorem analyses_explained (run : Command → Answer)
    (hunrun : ∀ command reason, run command = .error reason → reason.message ≠ "") (view : View)
    (targets : List String) :
    (∀ root workspace analysis report,
      Id.run (analyzeCode run view root workspace targets analysis) = .ok report →
        (∀ own, report.typeCheck = some own → own.Explained fun _ => true) ∧
        ∀ own, report.lint = some own → own.Explained LintIssue.isError) ∧
    ∀ directory analysis deep report,
      Id.run (analyzeInfra run view directory targets analysis deep) = .ok report →
        (∀ own, report.format = some own → own.Explained fun _ => true) ∧
        (∀ own, report.security = some own → own.Explained fun _ => true) ∧
        ∀ own, report.lint = some own → (own.Explained (·.severity == "error") ↔
          ∀ printed, configAnswer run view directory deep = .ok printed → ¬ ConfigMute printed own) := by
  refine ⟨fun root workspace analysis report hreport => ?_,
    fun directory analysis deep report hreport => ?_⟩
  · rcases hasked : view.askDir (root.join (.ofString workspace)) with fault | _ | _
    · cases (analyzeCode_of_untold hasked).symm.trans hreport
    · cases (analyzeCode_of_missing hasked).symm.trans hreport
      exact ⟨nofun, nofun⟩
    · obtain ⟨-, htypeCheck, hlint⟩ := judged_of_analyzeCode hasked hreport
      refine ⟨fun own hown => ?_, fun own hown => ?_⟩
      · exact (htypeCheck.of_eq_some hown).explained (hunrun _) (fun _ => explains_typeCheckReport)
          fun _ _ => explained_typeCheckReport
      · exact (hlint.of_eq_some hown).explained (hunrun _) (fun _ => explains_lintReport)
          fun _ _ => explained_lintReport
  · rcases hasked : view.askDir directory with fault | _ | _
    · cases (analyzeInfra_of_untold hasked).symm.trans hreport
    · cases (analyzeInfra_of_missing hasked).symm.trans hreport
      exact ⟨nofun, nofun, nofun⟩
    · obtain ⟨-, hformat, hlint, hsecurity⟩ := judged_of_analyzeInfra hasked hreport
      refine ⟨fun own hown => ?_, fun own hown => ?_, fun own hown => ?_⟩
      · exact (hformat.of_eq_some hown).explained (hunrun _) (fun _ => explains_formatReport)
          fun _ _ => explained_formatReport
      · exact (hsecurity.of_eq_some hown).explained (hunrun _) (fun _ => explains_securityReport)
          fun _ _ => explained_securityReport
      · exact explained_config_iff hunrun (hlint.of_eq_some hown)

theorem analyses_explained_withoutLinter :
    (∀ command reason, withoutLinter command = .error reason → reason.message ≠ "") ∧
      ∀ report, Id.run (analyzeCode withoutLinter bareWorkspace (.ofString "/") "server" [] .both) =
          .ok report →
        (∀ own, report.typeCheck = some own → own.Explained fun _ => true) ∧
        ∀ own, report.lint = some own → own.Explained LintIssue.isError := by
  have hunrun : ∀ command reason, withoutLinter command = .error reason → reason.message ≠ "" := by
    intro command reason hreason
    rw [withoutLinter] at hreason
    split_ifs at hreason
    cases hreason
    decide
  exact ⟨hunrun, (analyses_explained withoutLinter hunrun bareWorkspace []).1 (.ofString "/") "server"
    .both⟩

/-- What a linter prints that names an error without a text. -/
def namelessError : Printed where
  exit := 0
  out := "\x7b\"issues\": [], \"errors\": [\x7b\x7d]\x7d"

/-- The report failed without a message or an issue. -/
def InfraReport.lintsInSilence (report : InfraReport) : Bool :=
  report.lint.any fun own => !own.passed && own.error.isNone && own.issues.isEmpty

/-- Where the linter for infrastructure names an error without a text, its report fails without a
reason. -/
theorem not_forall_explained_analyzeInfra :
    ¬ ∀ (run : Command → Answer) (view : View) (directory : Path) (targets : List String)
        (analysis : InfraAnalysis) (deep : Bool) (report : InfraReport),
      (∀ command reason, run command = .error reason → reason.message ≠ "") →
        Id.run (analyzeInfra run view directory targets analysis deep) = .ok report →
          ∀ own, report.lint = some own → own.Explained (·.severity == "error") := by
  intro hall
  have hsilent : (Id.run (analyzeInfra (fun _ => .ok namelessError) bareInfra (.ofString "/infra") []
      .lint false)).toOption.any InfraReport.lintsInSilence = true := by decide +kernel
  obtain ⟨report, hreport, hsilent⟩ := (Option.any_eq_true _ _).mp hsilent
  obtain ⟨own, hown, hfailed⟩ := (Option.any_eq_true _ _).mp hsilent
  simp only [Bool.and_eq_true, Bool.not_eq_true', Option.isNone_iff_eq_none, List.isEmpty_iff]
    at hfailed
  obtain ⟨⟨hpassed, herror⟩, hissues⟩ := hfailed
  have hexplained := hall (fun _ => .ok namelessError) bareInfra (.ofString "/infra") [] .lint false
    report (fun _ _ h => by cases h) (toOption_eq_some.mp hreport) own hown
  rcases hexplained.mp hpassed with ⟨text, htext, -⟩ | ⟨i, hi, -⟩
  · cases herror.symm.trans htext
  · rw [hissues] at hi
    exact absurd hi List.not_mem_nil

end Lintel.Tool
