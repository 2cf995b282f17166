import Lintel.Proofs.Text.Blank
import Lintel.Proofs.Tool.Judged

/-!
# What rejected tools have printed

The report of a tool whose output is rejected keeps what the tool has printed, which may explain what went
wrong. Only the analyser of exports has nowhere to keep it once there is an opening brace in its output.

* `Keeps`: everything that was printed stands in the error or in the output of a report;
* `TellsAll`: a judgement that hands over everything that was printed when it rejects it;
  `tellsAll_typeCheckReport`, …, `tellsAll_securityReport`: so do the judgements about code and infrastructure;
* `keeps_iff_of_unusedExports`: the analyser of exports loses its output if there is an opening brace in it;
* **`rejections_kept`**: the reports of all tools whose output was rejected.
-/

namespace Lintel

/-- The fault says that the output of a tool cannot be used. -/
def Fault.IsRejection : Fault → Prop
  | .badOutput .. => True
  | _ => False

theorem Fault.IsRejection.isReported {fault : Fault} (h : fault.IsRejection) : fault.IsReported := by
  cases fault <;> first
    | exact trivial
    | exact h.elim

namespace Tool

open Files (NameTooLong Path View)

variable {issue α : Type} {tool : String} {answer : Answer} {printed : Printed}
  {judge : Printed → Except Fault (ToolReport issue)} {report : ToolReport issue}

/-- The output was rejected. -/
def Rejected (x : Except Fault α) : Prop := ∃ fault, x = .error fault ∧ fault.IsRejection

/-- The text is a part of the error or of the output. -/
def StandsIn (text : String) (error : Option String) (output : String) : Prop :=
  text.toList <:+: (error.getD "").toList ∨ text.toList <:+: output.toList

/-- Everything that a command printed, up to blanks at the ends, stands in the error or in the output. -/
structure Keeps (printed : Printed) (error : Option String) (output : String) : Prop where
  out : StandsIn (Text.trim printed.out) error output
  err : StandsIn (Text.trim printed.err) error output

/-! ## Everything that was printed -/

theorem trim_isInfix (s : String) : (Text.trim s).toList <:+: s.toList := by
  rw [Text.trim, String.toList_ofList]
  exact Text.trimChars_isInfix s.toList

theorem Printed.out_infix_all (printed : Printed) : printed.out.toList <:+: printed.all.toList := by
  rw [all]
  split_ifs with hout herr
  · rw [String.isEmpty_iff.mp hout]
    exact List.nil_infix
  · exact List.infix_rfl
  · rw [String.toList_append, String.toList_append, List.append_assoc]
    exact (List.prefix_append _ _).isInfix

theorem Printed.err_infix_all (printed : Printed) : printed.err.toList <:+: printed.all.toList := by
  rw [all]
  split_ifs with hout herr
  · exact List.infix_rfl
  · rw [String.isEmpty_iff.mp herr]
    exact List.nil_infix
  · rw [String.toList_append]
    exact (List.suffix_append _ _).isInfix

theorem keeps_all (error : Option String) : Keeps printed error printed.all :=
  ⟨.inr ((trim_isInfix _).trans printed.out_infix_all), .inr ((trim_isInfix _).trans printed.err_infix_all)⟩

theorem keeps_of_trim (front output : String) :
    Keeps printed (some (front ++ Text.trim printed.all)) output := by
  have hkept : ∀ s : String, s.toList <:+: printed.all.toList →
      StandsIn (Text.trim s) (some (front ++ Text.trim printed.all)) output := by
    intro s hs
    refine .inl ?_
    rw [Option.getD_some, String.toList_append, Text.trim, Text.trim, String.toList_ofList,
      String.toList_ofList]
    exact (Text.infix_trimChars (Text.trimmed_trimChars _) ((Text.trimChars_isInfix _).trans hs)).trans
      (List.suffix_append _ _).isInfix
  exact ⟨hkept _ printed.out_infix_all, hkept _ printed.err_infix_all⟩

/-! ## Guarded tools -/

/-- If the output is rejected, everything that was printed is handed over. -/
abbrev TellsAll (printed : Printed) (x : Except Fault α) : Prop :=
  FailsOnlyWith (fun fault => fault.IsRejection → fault.printed = printed.all) x

theorem tellsAll_of_escapes {x : Except Fault α} (h : Escapes x) : TellsAll printed x :=
  h.imp fun _ hfault hrejection => absurd hrejection.isReported hfault

theorem tellsAll_badOutput (cause : BadOutput) :
    TellsAll printed (.error (.badOutput tool cause printed.all) : Except Fault α) :=
  failsOnlyWith_error.mpr fun _ => rfl

theorem tellsAll_withOutput (x : Except Fault α) : TellsAll printed (withOutput printed x) := by
  cases x with
  | ok a => exact failsOnlyWith_ok a
  | error fault =>
    cases fault <;> first
      | exact tellsAll_badOutput _
      | exact failsOnlyWith_error.mpr False.elim

section Judgements

variable {view : View} {directory : Path} {targets : List String}

theorem tellsAll_typeCheckReport : TellsAll printed (typeCheckReport view directory targets printed) := by
  refine rejects_typeCheckReport.imp fun fault hsilent hrejection => ?_
  rw [hsilent hrejection.isReported]
  rfl

theorem tellsAll_formatReport : TellsAll printed (formatReport view directory targets printed) := by
  refine rejects_formatReport.imp fun fault hsilent hrejection => ?_
  rw [hsilent hrejection.isReported]
  rfl

theorem tellsAll_lintReport : TellsAll printed (lintReport view directory targets printed) :=
  (tellsAll_withOutput _).bind fun _ =>
    (tellsAll_of_escapes escapes_narrowTo).bind fun _ => failsOnlyWith_ok _

theorem tellsAll_configReport : TellsAll printed (configReport view directory targets printed) :=
  (tellsAll_withOutput _).bind fun _ => (tellsAll_of_escapes escapes_narrowTo).bind fun _ =>
    (tellsAll_of_escapes escapes_joinedErrors).bind fun _ => failsOnlyWith_ok _

theorem tellsAll_securityReport : TellsAll printed (securityReport view directory targets printed) :=
  (tellsAll_withOutput _).bind fun _ =>
    (tellsAll_of_escapes escapes_narrowTo).bind fun _ => failsOnlyWith_ok _

end Judgements

/-- The report of a tool whose output was rejected has failed, and it keeps everything that was printed. -/
def KeepsRejected (answer : Answer) (judge : Printed → Except Fault (ToolReport issue))
    (report : ToolReport issue) : Prop :=
  ∀ printed, answer = .ok printed → Rejected (judge printed) →
    report.passed = false ∧ Keeps printed report.error report.output

theorem Judged.keepsRejected (h : Judged tool judge answer report)
    (htells : ∀ printed, TellsAll printed (judge printed)) : KeepsRejected answer judge report := by
  rintro printed rfl ⟨fault, hfault, hrejection⟩
  obtain rfl := h.eq_of_error hfault
  have hprinted : fault.printed = printed.all := htells printed fault hfault hrejection
  exact ⟨rfl, hprinted ▸ keeps_all _⟩

theorem Rejected.settles {x : Except Fault α} (h : Rejected x) : Settles x := by
  obtain ⟨fault, rfl, hrejection⟩ := h
  exact settles_error.mpr hrejection.isReported

/-! ## Exports -/

theorem brace_notMem_toString (n : ℕ) : '\x7b' ∉ (toString n).toList := by
  intro hmem
  rw [Nat.toString_eq_repr, Nat.repr_eq_ofList_toDigits, String.toList_ofList] at hmem
  exact absurd (Nat.isDigit_of_mem_toDigits (by decide) (by decide) hmem) (by decide)

theorem brace_notMem_message (fault : Json.Misplaced) : '\x7b' ∉ fault.message.toList := by
  have hphrase : '\x7b' ∉ fault.what.phrase.toList := by cases fault.what <;> decide
  have hnumber := brace_notMem_toString
  simp only [Json.Misplaced.message, String.toList_append, List.mem_append, not_or]
  exact ⟨hphrase, ⟨⟨⟨⟨⟨by decide, hnumber _⟩, by decide⟩, hnumber _⟩, by decide⟩, hnumber _⟩, by decide⟩

/-- A fault that rejects output says so without a brace. -/
def Braceless : Fault → Prop
  | .badOutput _ cause _ => '\x7b' ∉ cause.message.toList
  | _ => True

theorem Braceless.notMem_message {fault : Fault} (h : Braceless fault) (hrejection : fault.IsRejection) :
    '\x7b' ∉ fault.message.toList := by
  cases fault <;> first
    | exact h
    | exact hrejection.elim

theorem braceless_of_escapes {x : Except Fault α} (h : Escapes x) : FailsOnlyWith Braceless x := by
  intro fault hfault
  have hescapes : ¬ fault.IsReported := h fault hfault
  cases fault <;> first
    | exact trivial
    | exact absurd trivial hescapes

theorem braceless_notJson (fault : Json.Misplaced) :
    Braceless (.badOutput "knip" (.notJson "knip" fault) "") := by
  simp only [Braceless, BadOutput.message, String.toList_append, List.mem_append, not_or]
  exact ⟨⟨by decide, by decide⟩, brace_notMem_message fault⟩

theorem braceless_shape : Braceless (.badOutput "knip" (.shape "knip output has no files map") "") := by
  simp only [Braceless, BadOutput.message]
  decide

theorem braceless_ofPayload (payload : String) :
    FailsOnlyWith Braceless (UnusedExport.ofPayload payload) := by
  rw [UnusedExport.ofPayload]
  cases Json.parseFront payload.toList with
  | error flaw =>
    cases flaw with
    | longInteger digits => exact braceless_of_escapes (failsOnlyWith_error.mpr id)
    | misplaced fault => exact failsOnlyWith_error.mpr (braceless_notJson fault)
  | ok value =>
    cases hfiles : filesOf value with
    | none =>
      simp only [hfiles]
      exact failsOnlyWith_error.mpr braceless_shape
    | some files =>
      simp only [hfiles]
      exact braceless_of_escapes ((FailsOnlyWith.mapM fun _ _ => UnusedExport.escapes_ofFile).bind
        fun _ => failsOnlyWith_ok _)

theorem jsonPart?_eq_none_iff (output : String) :
    jsonPart? output = none ↔ '\x7b' ∉ output.toList := by
  have hnone : jsonPart? output = none ↔ output.toList.dropWhile (· != '\x7b') = [] := by
    rw [jsonPart?]
    split
    · exact iff_of_true rfl ‹_›
    · exact iff_of_false nofun ‹_›
  rw [hnone, List.dropWhile_eq_nil_iff]
  simp only [bne_iff_ne, ne_eq]
  exact ⟨fun h hmem => h _ hmem rfl, fun h c hc heq => h (heq ▸ hc)⟩

section Exports

variable {view : View} {directory : Path} {targets : List String}

theorem not_keeps_of_brace {error : String} (hmem : '\x7b' ∈ printed.out.toList)
    (herror : '\x7b' ∉ error.toList) : ¬ Keeps printed (some error) "" := by
  rintro ⟨hout | hout, -⟩
  all_goals
    have hbrace : '\x7b' ∈ (Text.trim printed.out).toList := by
      rw [Text.trim, String.toList_ofList]
      exact Text.mem_trimChars hmem (by decide)
  · exact herror (hout.subset hbrace)
  · exact absurd (hout.subset hbrace) (by decide)

/-- **Rejected output of the analyser of exports is lost exactly if there is an opening brace in it.** -/
theorem keeps_iff_of_unusedExports {fault : Fault}
    (hfault : unusedExports view directory targets printed = .error fault)
    (hrejection : fault.IsRejection) :
    Keeps printed (some fault.message) "" ↔ '\x7b' ∉ printed.out.toList := by
  rw [unusedExports] at hfault
  cases hpart : jsonPart? printed.out with
  | none =>
    rw [hpart] at hfault
    refine iff_of_true ?_ ((jsonPart?_eq_none_iff _).mp hpart)
    simp only at hfault
    split_ifs at hfault
    · cases hfault
    · cases hfault
      exact keeps_of_trim _ _
  | some payload =>
    have hmem : '\x7b' ∈ printed.out.toList := by
      by_contra hnot
      rw [(jsonPart?_eq_none_iff _).mpr hnot] at hpart
      cases hpart
    have hnarrow : ∀ found, Escapes (UnusedExport.narrow? view directory targets found) :=
      fun _ => Files.escapes_keepWithin
    have hbraceless : Braceless fault := by
      rw [hpart] at hfault
      refine (braceless_ofPayload payload).bind (fun found => ?_) fault hfault
      exact braceless_of_escapes ((FailsOnlyWith.mapM fun _ _ => hnarrow _).bind
        fun _ => failsOnlyWith_ok _)
    exact iff_of_false (not_keeps_of_brace hmem (hbraceless.notMem_message hrejection)) (not_not.mpr hmem)

end Exports

/-! ## All tools -/

section Tools

variable (answers : Command → Answer) (view : View) (targets : List String)

/-- The reports about tools for code whose output was rejected keep what was printed, and there is a report
about such a tool alone, where it can be told whether the workspace is there. -/
structure CodeKeeps (root : Path) (workspace : String) : Prop where
  typeCheckEnds : ∀ printed, answers ⟨typeCheckWords, root.join (.ofString workspace)⟩ = .ok printed →
    Rejected (typeCheckReport view (root.join (.ofString workspace)) targets printed) →
      (Ends (Id.run (analyzeCode answers view root workspace targets .typeCheck)) ↔
        ¬ NameTooLong view (root.join (.ofString workspace)))
  lintEnds : ∀ printed, answers ⟨lintWords, root.join (.ofString workspace)⟩ = .ok printed →
    Rejected (lintReport view (root.join (.ofString workspace)) targets printed) →
      (Ends (Id.run (analyzeCode answers view root workspace targets .lint)) ↔
        ¬ NameTooLong view (root.join (.ofString workspace)))
  keeps : ∀ analysis report, view.askDir (root.join (.ofString workspace)) = .ok true →
    Id.run (analyzeCode answers view root workspace targets analysis) = .ok report →
      ReportIf analysis.checksTypes
        (KeepsRejected (answers ⟨typeCheckWords, root.join (.ofString workspace)⟩)
          (typeCheckReport view (root.join (.ofString workspace)) targets)) report.typeCheck ∧
      ReportIf analysis.lints
        (KeepsRejected (answers ⟨lintWords, root.join (.ofString workspace)⟩)
          (lintReport view (root.join (.ofString workspace)) targets)) report.lint

/-- The reports about tools for infrastructure whose output was rejected keep what was printed, and there is a
report about such a tool alone, where it can be told whether the directory is there. -/
structure InfraKeeps (directory : Path) (deep : Bool) : Prop where
  formatEnds : ∀ printed, answers ⟨formatWords, directory⟩ = .ok printed →
    Rejected (formatReport view directory targets printed) →
      (Ends (Id.run (analyzeInfra answers view directory targets .format deep)) ↔
        ¬ NameTooLong view directory)
  lintEnds : ∀ printed, configAnswer answers view directory deep = .ok printed →
    Rejected (configReport view directory targets printed) →
      (Ends (Id.run (analyzeInfra answers view directory targets .lint deep)) ↔
        ¬ NameTooLong view directory)
  securityEnds : ∀ printed, answers ⟨securityWords, directory⟩ = .ok printed →
    Rejected (securityReport view directory targets printed) →
      (Ends (Id.run (analyzeInfra answers view directory targets .security deep)) ↔
        ¬ NameTooLong view directory)
  keeps : ∀ analysis report, view.askDir directory = .ok true →
    Id.run (analyzeInfra answers view directory targets analysis deep) = .ok report →
      ReportIf (analysis.includes .format) (KeepsRejected (answers ⟨formatWords, directory⟩)
        (formatReport view directory targets)) report.format ∧
      ReportIf (analysis.includes .lint) (KeepsRejected (configAnswer answers view directory deep)
        (configReport view directory targets)) report.lint ∧
      ReportIf (analysis.includes .security) (KeepsRejected (answers ⟨securityWords, directory⟩)
        (securityReport view directory targets)) report.security

/-- Where the output of the analyser of exports was rejected, there is a report, and it keeps what was printed
exactly if there is no opening brace in the regular output. -/
def ExportsKeep (root : Path) (workspace : String) : Prop :=
  ∀ printed, answers ⟨exportsWords workspace, root⟩ = .ok printed →
    Rejected (unusedExports view (root.join (.ofString workspace)) targets printed) →
      ∃ report, Id.run (analyzeExports answers view root workspace targets) = .ok report ∧
        report.success = false ∧
        (Keeps printed report.error report.output ↔ '\x7b' ∉ printed.out.toList)

theorem analyzeExports_of_rejection {root : Path} {workspace : String} {fault : Fault}
    (hprinted : answers ⟨exportsWords workspace, root⟩ = .ok printed)
    (hfault : unusedExports view (root.join (.ofString workspace)) targets printed = .error fault)
    (hrejection : fault.IsRejection) :
    Id.run (analyzeExports answers view root workspace targets) =
      .ok { workspace, targets, error := some fault.message } := by
  rw [analyzeExports_eq, hprinted]
  simp only [hfault]
  cases fault <;> first
    | rfl
    | exact hrejection.elim

theorem codeKeeps (root : Path) (workspace : String) : CodeKeeps answers view targets root workspace := by
  refine ⟨fun printed hprinted hrejected => ?_, fun printed hprinted hrejected => ?_,
    fun analysis report hasked hreport => ?_⟩
  · refine ends_analyzeCode.trans ⟨CodeReportable.told, fun htold =>
      ⟨htold, fun _ _ own hown => ?_, fun _ h => (by cases h)⟩⟩
    cases hprinted.symm.trans hown
    exact settles_typeCheckReport.mp hrejected.settles
  · refine ends_analyzeCode.trans ⟨CodeReportable.told, fun htold =>
      ⟨htold, fun _ h => (by cases h), fun _ _ own hown => ?_⟩⟩
    cases hprinted.symm.trans hown
    exact settles_lintReport.mp hrejected.settles
  · obtain ⟨-, htypeCheck, hlint⟩ := judged_of_analyzeCode hasked hreport
    exact ⟨htypeCheck.imp fun _ _ h => h.keepsRejected fun _ => tellsAll_typeCheckReport,
      hlint.imp fun _ _ h => h.keepsRejected fun _ => tellsAll_lintReport⟩

theorem infraKeeps (directory : Path) (deep : Bool) : InfraKeeps answers view targets directory deep := by
  refine ⟨fun printed hprinted hrejected => ?_, fun printed hprinted hrejected => ?_,
    fun printed hprinted hrejected => ?_, fun analysis report hasked hreport => ?_⟩
  · refine ends_analyzeInfra.trans ⟨InfraReportable.told, fun htold =>
      ⟨htold, fun _ _ own hown => ?_, fun _ h => (by cases h), fun _ h => (by cases h)⟩⟩
    cases hprinted.symm.trans hown
    exact settles_formatReport.mp hrejected.settles
  · refine ends_analyzeInfra.trans ⟨InfraReportable.told, fun htold =>
      ⟨htold, fun _ h => (by cases h), fun _ _ own hown => ?_, fun _ h => (by cases h)⟩⟩
    cases hprinted.symm.trans hown
    exact settles_configReport.mp hrejected.settles
  · refine ends_analyzeInfra.trans ⟨InfraReportable.told, fun htold =>
      ⟨htold, fun _ h => (by cases h), fun _ h => (by cases h), fun _ _ own hown => ?_⟩⟩
    cases hprinted.symm.trans hown
    exact settles_securityReport.mp hrejected.settles
  · obtain ⟨-, hformat, hlint, hsecurity⟩ := judged_of_analyzeInfra hasked hreport
    exact ⟨hformat.imp fun _ _ h => h.keepsRejected fun _ => tellsAll_formatReport,
      hlint.imp fun _ _ h => h.keepsRejected fun _ => tellsAll_configReport,
      hsecurity.imp fun _ _ h => h.keepsRejected fun _ => tellsAll_securityReport⟩

theorem exportsKeep (root : Path) (workspace : String) :
    ExportsKeep answers view targets root workspace := by
  rintro printed hprinted ⟨fault, hfault, hrejection⟩
  exact ⟨_, analyzeExports_of_rejection answers view targets hprinted hfault hrejection, rfl,
    keeps_iff_of_unusedExports hfault hrejection⟩

end Tools

/-- **What a tool has printed is kept where its output is rejected**, by all tools but the analyser of exports,
which loses it if there is an opening brace in its regular output. -/
theorem rejections_kept (answers : Command → Answer) (view : View) (targets : List String) :
    (∀ root workspace, CodeKeeps answers view targets root workspace) ∧
      (∀ directory deep, InfraKeeps answers view targets directory deep) ∧
      ∀ root workspace, ExportsKeep answers view targets root workspace :=
  ⟨codeKeeps answers view targets, infraKeeps answers view targets, exportsKeep answers view targets⟩

/-- A linter that prints why it does not work, but not where output is expected. -/
def unconfigured : Printed where
  exit := 2
  err := "Oops! Something went wrong: cannot read configuration file eslint.config.mjs"

theorem rejections_kept_unconfigured :
    let code := Id.run (analyzeCode (fun _ => .ok unconfigured) bareWorkspace (.ofString "/") "server" []
      .lint)
    ∃ report own, code = .ok report ∧ report.lint = some own ∧ own.passed = false ∧
      Keeps unconfigured own.error own.output := by
  intro code
  have hrejected : Rejected (lintReport bareWorkspace (Path.join (.ofString "/") (.ofString "server")) []
      unconfigured) := ⟨_, rfl, trivial⟩
  have hkeeps := (rejections_kept (fun _ => .ok unconfigured) bareWorkspace []).1 (.ofString "/") "server"
  have htold : ¬ NameTooLong bareWorkspace (Path.join (.ofString "/") (.ofString "server")) :=
    Files.ends_askDir_iff.mp (ends_iff_toBool.mpr (by decide +kernel))
  obtain ⟨report, hreport⟩ := (hkeeps.lintEnds unconfigured rfl hrejected).mpr htold
  obtain ⟨own, hown, hkept⟩ := (hkeeps.keeps .lint report (by rfl) hreport).2
  exact ⟨report, own, hreport, hown, hkept unconfigured rfl hrejected⟩

/-- An analyser of exports that prints its settings, and then why it does not work. -/
def settingsShown : Printed where
  exit := 2
  out := "Config: \x7b entry: [\"src/main.ts\"] \x7d"
  err := "knip: cannot find module typescript"

theorem rejected_settingsShown :
    Rejected (unusedExports bareWorkspace (Path.join (.ofString "/") (.ofString "server")) []
      settingsShown) := by
  have hpart : jsonPart? settingsShown.out = some "\x7b entry: [\"src/main.ts\"] \x7d" := by decide
  have hparse : Json.parseFront "\x7b entry: [\"src/main.ts\"] \x7d".toList =
      .error (.misplaced ⟨.name, 2, 1, 3⟩) := by cbv
  refine ⟨.badOutput "knip" (.notJson "knip" ⟨.name, 2, 1, 3⟩) "", ?_, trivial⟩
  rw [unusedExports, hpart]
  simp only [UnusedExport.ofPayload, hparse]
  rfl

/-- What the analyser of exports says is lost where it prints a brace that does not open a report. -/
theorem not_forall_exports_kept :
    ¬ ∀ (answers : Command → Answer) (view : View) (root : Path) (workspace : String)
        (targets : List String) (printed : Printed),
      answers ⟨exportsWords workspace, root⟩ = .ok printed →
        Rejected (unusedExports view (root.join (.ofString workspace)) targets printed) →
          ∃ report, Id.run (analyzeExports answers view root workspace targets) = .ok report ∧
            Keeps printed report.error report.output := by
  intro hall
  obtain ⟨report, hreport, hkeeps⟩ := hall (fun _ => .ok settingsShown) bareWorkspace (.ofString "/")
    "server" [] settingsShown rfl rejected_settingsShown
  obtain ⟨own, hown, -, hiff⟩ := exportsKeep (fun _ => .ok settingsShown) bareWorkspace []
    (.ofString "/") "server" settingsShown rfl rejected_settingsShown
  cases hown.symm.trans hreport
  exact absurd (hiff.mp hkeeps) (by decide)

end Tool

end Lintel
