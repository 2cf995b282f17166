import Lintel.Proofs.Gather
import Lintel.Proofs.Tool.InfraExact

/-!
# Tools together and alone

In an analysis with several tools, each of them has the report that it has alone.

* `noting`: a runner that notes the commands; `codeCommands`, `infraCommands`: the commands of an analysis;
  `run_analyzeCode_noting`, `gives_analyzeInfra`: these are the ones that are given;
* `analyzeAtOnce`: the tools for code at the same time; **`analyzeAtOnce_eq_ok`**: the order in which their
  answers come is of no account;
* **`alone_and_together`**: an analysis of everything gives a report exactly if each tool alone gives one, and
  it has the report of each tool. A fault that gets past the guard of one tool takes the reports of the others
  with it (`not_forall_together`).
-/

namespace Lintel.Tool

open Files (Path View)

variable {answers : Command → Answer} {view : View} {targets : List String}

/-! ## Commands -/

/-- Answers commands in a fixed way and notes them. -/
def noting (answers : Command → Answer) : Runner (StateM (List Command)) :=
  fun command noted => (answers command, noted ++ [command])

/-- The command, if it is wanted. -/
def commandIf (wanted : Bool) (command : Command) : List Command := if wanted then [command] else []

/-- The commands of an analysis of code; there are none without the workspace. -/
def codeCommands (view : View) (directory : Path) (analysis : CodeAnalysis) : List Command :=
  match view.askDir directory with
  | .ok true =>
    commandIf analysis.checksTypes ⟨typeCheckWords, directory⟩ ++
      commandIf analysis.lints ⟨lintWords, directory⟩
  | _ => []

/-- The commands of the linter for infrastructure, which is only run if it could be prepared. -/
def configCommands (answers : Command → Answer) (view : View) (directory : Path) (deep : Bool) :
    List Command :=
  ⟨configInitWords, directory⟩ ::
    match answers ⟨configInitWords, directory⟩ with
    | .ok prepared => commandIf (prepared.exit == 0) ⟨configWords view directory deep, directory⟩
    | .error _ => []

/-- The commands of an analysis of infrastructure; there are none without the directory. -/
def infraCommands (answers : Command → Answer) (view : View) (directory : Path)
    (analysis : InfraAnalysis) (deep : Bool) : List Command :=
  match view.askDir directory with
  | .ok true =>
    commandIf (analysis.includes .format) ⟨formatWords, directory⟩ ++
      ((if analysis.includes .lint then configCommands answers view directory deep else []) ++
        commandIf (analysis.includes .security) ⟨securityWords, directory⟩)
  | _ => []

theorem run_bind {α β : Type} (act : StateM (List Command) α) (next : α → StateM (List Command) β)
    (noted : List Command) : (act >>= next) noted = next (act noted).1 (act noted).2 := rfl

/-- The action comes to the value and gives the commands, all of them if the value is there. -/
def Gives {α : Type} (act : StateM (List Command) (Except Fault α)) (value : Except Fault α)
    (commands : List Command) : Prop :=
  ∀ noted, ∃ given, act noted = (value, noted ++ given) ∧ given <+: commands ∧
    (Ends value → given = commands)

section Gives

variable {α β : Type} {act : StateM (List Command) (Except Fault α)} {value : Except Fault α}
  {commands : List Command}

theorem Gives.of_eq (h : ∀ noted, act noted = (value, noted ++ commands)) :
    Gives act value commands :=
  fun noted => ⟨commands, h noted, List.prefix_rfl, fun _ => rfl⟩

theorem Gives.map (h : Gives act value commands) (f : α → β) :
    Gives (act >>= fun result => pure (result.map f)) (value.map f) commands := by
  intro noted
  obtain ⟨given, hact, hprefix, hall⟩ := h noted
  refine ⟨given, ?_, hprefix, fun hends => hall (ends_map.mp hends)⟩
  rw [run_bind, hact]
  rfl

theorem Gives.andThen {next : α → StateM (List Command) (Except Fault β)} {after : α → Except Fault β}
    {others : List Command} (h : Gives act value commands)
    (hnext : ∀ a, Gives (next a) (after a) others) :
    Gives (act >>= fun result => Tool.andThen result next) (value >>= after) (commands ++ others) := by
  intro noted
  obtain ⟨given, hact, hprefix, hall⟩ := h noted
  rw [run_bind, hact]
  cases value with
  | error fault =>
    exact ⟨given, rfl, hprefix.trans (List.prefix_append _ _), fun hends => absurd hends (not_ends_error _)⟩
  | ok a =>
    obtain rfl := hall (ends_ok a)
    obtain ⟨more, hmore, hothers, hrest⟩ := hnext a (noted ++ given)
    refine ⟨given ++ more, ?_, (List.prefix_append_right_inj given).mpr hothers, fun hends => ?_⟩
    · rw [← List.append_assoc]
      exact hmore
    · rw [hrest hends]

end Gives

section Noting

variable {issue : Type} {tool : String} {judge : Printed → Except Fault (ToolReport issue)}
  {directory : Path} {deep wanted : Bool}

theorem run_runIf_noting (command : Command) (noted : List Command) :
    runIf wanted (noting answers) tool command judge noted =
      (Id.run (runIf wanted answers tool command judge), noted ++ commandIf wanted command) := by
  cases wanted with
  | true => rfl
  | false => exact Prod.ext rfl (List.append_nil noted).symm

theorem run_lintConfig_noting (noted : List Command) :
    lintConfig (noting answers) view directory targets deep noted =
      (Id.run (lintConfig answers view directory targets deep),
        noted ++ configCommands answers view directory deep) := by
  rw [lintConfig_eq, lintConfig, run_bind, noting, configAnswer, configCommands]
  cases answers ⟨configInitWords, directory⟩ with
  | error unrun => rfl
  | ok prepared =>
    by_cases hexit : prepared.exit = 0
    · simp only [hexit, commandIf]
      exact Prod.ext rfl (List.append_assoc noted [_] [_])
    · simp only [bne_iff_ne, ne_eq, hexit, not_false_eq_true, if_true, if_false, commandIf, beq_iff_eq]
      rfl

theorem gives_lintConfigIf :
    Gives (lintConfigIf wanted (noting answers) view directory targets deep)
      (Id.run (lintConfigIf wanted answers view directory targets deep))
      (if wanted then configCommands answers view directory deep else []) := by
  cases wanted with
  | true => exact (Gives.of_eq run_lintConfig_noting).map some
  | false => exact .of_eq fun noted => Prod.ext rfl (List.append_nil noted).symm

/-- **The commands of an analysis of code.** -/
theorem run_analyzeCode_noting {root : Path} {workspace : String} {analysis : CodeAnalysis}
    (noted : List Command) :
    analyzeCode (noting answers) view root workspace targets analysis noted =
      (Id.run (analyzeCode answers view root workspace targets analysis),
        noted ++ codeCommands view (root.join (.ofString workspace)) analysis) := by
  rw [codeCommands]
  rcases hasked : view.askDir (root.join (.ofString workspace)) with fault | _ | _
  · rw [analyzeCode_of_untold hasked, analyzeCode]
    simp only [hasked]
    exact Prod.ext rfl (List.append_nil noted).symm
  · rw [analyzeCode_of_missing hasked, analyzeCode]
    simp only [hasked]
    exact Prod.ext rfl (List.append_nil noted).symm
  · rw [analyzeCode_of_there hasked, analyzeCode]
    simp only [hasked]
    rw [run_bind, run_runIf_noting, run_bind, run_runIf_noting]
    exact Prod.ext rfl (List.append_assoc noted _ _)

/-- **The commands of an analysis of infrastructure.** -/
theorem gives_analyzeInfra {analysis : InfraAnalysis} :
    Gives (analyzeInfra (noting answers) view directory targets analysis deep)
      (Id.run (analyzeInfra answers view directory targets analysis deep))
      (infraCommands answers view directory analysis deep) := by
  rw [infraCommands]
  rcases hasked : view.askDir directory with fault | _ | _
  · rw [analyzeInfra_of_untold hasked, analyzeInfra]
    simp only [hasked]
    exact .of_eq fun noted => Prod.ext rfl (List.append_nil noted).symm
  · rw [analyzeInfra_of_missing hasked, analyzeInfra]
    simp only [hasked]
    exact .of_eq fun noted => Prod.ext rfl (List.append_nil noted).symm
  · rw [analyzeInfra_of_there hasked, analyzeInfra]
    simp only [hasked]
    refine Gives.andThen (.of_eq (run_runIf_noting _)) fun format => ?_
    refine Gives.andThen gives_lintConfigIf fun lint => ?_
    exact map_eq_bind (Id.run (runIf _ answers _ _ _)) _ ▸
      (Gives.of_eq (run_runIf_noting _)).map _

end Noting

/-! ## Tools for code at the same time -/

/-- The tools for code. -/
inductive CodeTool where
  | typeChecker
  | linter
  deriving DecidableEq, Repr

/-- The tools of an analysis. -/
def CodeAnalysis.tools : CodeAnalysis → List CodeTool
  | .typeCheck => [.typeChecker]
  | .lint => [.linter]
  | .both => [.typeChecker, .linter]

/-- The part of a report about code that one tool has. -/
inductive CodePart where
  | typeCheck (own : ToolReport Diagnostic)
  | lint (own : ToolReport LintIssue)

/-- The report with one part more. -/
def CodeReport.add (report : CodeReport) : CodePart → CodeReport
  | .typeCheck own => { report with typeCheck := some own }
  | .lint own => { report with lint := some own }

/-- What one tool has for the report once its answer is there. -/
def CodeTool.part (answers : Command → Answer) (view : View) (directory : Path)
    (targets : List String) : CodeTool → Except Fault CodePart
  | .typeChecker => (guarded "tsc" (answers ⟨typeCheckWords, directory⟩)
      (typeCheckReport view directory targets)).map .typeCheck
  | .linter => (guarded "eslint" (answers ⟨lintWords, directory⟩)
      (lintReport view directory targets)).map .lint

/-- Makes the analyses of code at the same time; the answers come in some order, and a fault is passed on as
soon as it is there. -/
def analyzeAtOnce (answers : Command → Answer) (view : View) (root : Path) (workspace : String)
    (targets : List String) (analysis : CodeAnalysis) (order : EndOrder analysis.tools.length) :
    Except Fault CodeReport := do
  let directory := root.join (.ofString workspace)
  if ← view.askDir directory then
    let parts ← gatherAll (CodeTool.part answers view directory targets) analysis.tools order
    return parts.foldl CodeReport.add { workspace, targets }
  else
    let error := "Workspace directory not found: " ++ directory.text
    return { workspace, targets, error := some error }

section Code

variable {root : Path} {workspace : String} {analysis : CodeAnalysis} {report : CodeReport}

theorem run_runIf_true {issue : Type} {tool : String} {command : Command}
    {judge : Printed → Except Fault (ToolReport issue)} :
    Id.run (runIf true answers tool command judge) = (guarded tool (answers command) judge).map some :=
  rfl

theorem run_runIf_false {issue : Type} {tool : String} {command : Command}
    {judge : Printed → Except Fault (ToolReport issue)} :
    Id.run (runIf false answers tool command judge) = .ok none := rfl

theorem analyzeCode_eq_mapM (hasked : view.askDir (root.join (.ofString workspace)) = .ok true) :
    Id.run (analyzeCode answers view root workspace targets analysis) =
      (analysis.tools.mapM (CodeTool.part answers view (root.join (.ofString workspace)) targets)).map
        (·.foldl CodeReport.add { workspace, targets }) := by
  rw [analyzeCode_of_there hasked]
  generalize root.join (.ofString workspace) = directory
  dsimp only
  obtain ⟨typeCheck, htypeCheck⟩ : ∃ own, guarded "tsc" (answers ⟨typeCheckWords, directory⟩)
    (typeCheckReport view directory targets) = own := ⟨_, rfl⟩
  obtain ⟨lint, hlint⟩ : ∃ own, guarded "eslint" (answers ⟨lintWords, directory⟩)
    (lintReport view directory targets) = own := ⟨_, rfl⟩
  cases analysis with
  | typeCheck =>
    rw [show CodeAnalysis.typeCheck.checksTypes = true from rfl,
      show CodeAnalysis.typeCheck.lints = false from rfl, run_runIf_true, run_runIf_false,
      CodeAnalysis.tools, List.mapM_cons, List.mapM_nil, CodeTool.part, htypeCheck]
    cases typeCheck <;> rfl
  | lint =>
    rw [show CodeAnalysis.lint.checksTypes = false from rfl,
      show CodeAnalysis.lint.lints = true from rfl, run_runIf_true, run_runIf_false,
      CodeAnalysis.tools, List.mapM_cons, List.mapM_nil, CodeTool.part, hlint]
    cases lint <;> rfl
  | both =>
    rw [show CodeAnalysis.both.checksTypes = true from rfl,
      show CodeAnalysis.both.lints = true from rfl, run_runIf_true, run_runIf_true,
      CodeAnalysis.tools, List.mapM_cons, List.mapM_cons, List.mapM_nil, CodeTool.part, CodeTool.part,
      htypeCheck, hlint]
    cases typeCheck <;> cases lint <;> rfl

/-- **The order in which the answers come is of no account** for the report. -/
theorem analyzeAtOnce_eq_ok (order : EndOrder analysis.tools.length) :
    analyzeAtOnce answers view root workspace targets analysis order = .ok report ↔
      Id.run (analyzeCode answers view root workspace targets analysis) = .ok report := by
  rw [analyzeAtOnce]
  rcases hasked : view.askDir (root.join (.ofString workspace)) with fault | _ | _
  · rw [analyzeCode_of_untold hasked]
    rfl
  · rw [analyzeCode_of_missing hasked]
    rfl
  · rw [analyzeCode_eq_mapM hasked, ok_bind, if_pos rfl]
    simp only [bind_eq_ok, map_eq_ok, pure_eq_ok, Except.ok.injEq, gatherAll_eq_ok]

theorem analyzeCode_eq_ok (hasked : view.askDir (root.join (.ofString workspace)) = .ok true) :
    Id.run (analyzeCode answers view root workspace targets analysis) = .ok report ↔
      Id.run (runIf analysis.checksTypes answers "tsc" ⟨typeCheckWords, root.join (.ofString workspace)⟩
        (typeCheckReport view (root.join (.ofString workspace)) targets)) = .ok report.typeCheck ∧
      Id.run (runIf analysis.lints answers "eslint" ⟨lintWords, root.join (.ofString workspace)⟩
        (lintReport view (root.join (.ofString workspace)) targets)) = .ok report.lint ∧
      report.workspace = workspace ∧ report.targets = targets ∧ report.error = none := by
  rw [analyzeCode_of_there hasked]
  dsimp only
  rw [bind_eq_ok]
  constructor
  · rintro ⟨typeCheck, htypeCheck, h⟩
    obtain ⟨lint, hlint, h⟩ := bind_eq_ok.mp h
    cases h
    exact ⟨htypeCheck, hlint, rfl, rfl, rfl⟩
  · rintro ⟨htypeCheck, hlint, hworkspace, htargets, herror⟩
    refine ⟨_, htypeCheck, bind_eq_ok.mpr ⟨_, hlint, ?_⟩⟩
    rw [← hworkspace, ← htargets]
    cases report
    cases herror
    rfl

theorem both_eq_ok_iff :
    Id.run (analyzeCode answers view root workspace targets .both) = .ok report ↔
      Id.run (analyzeCode answers view root workspace targets .typeCheck) =
          .ok { report with lint := none } ∧
      Id.run (analyzeCode answers view root workspace targets .lint) =
          .ok { report with typeCheck := none } := by
  rcases hasked : view.askDir (root.join (.ofString workspace)) with fault | _ | _
  · simp only [analyzeCode_of_untold hasked, reduceCtorEq, and_self]
  · simp only [analyzeCode_of_missing hasked, Except.ok.injEq]
    cases report
    simp only [CodeReport.mk.injEq]
    tauto
  · simp only [analyzeCode_eq_ok hasked, show CodeAnalysis.typeCheck.lints = false from rfl,
      show CodeAnalysis.lint.checksTypes = false from rfl, run_runIf_false, true_and]
    exact ⟨fun ⟨htypeCheck, hlint, hrest⟩ => ⟨⟨htypeCheck, hrest⟩, hlint, hrest⟩,
      fun ⟨⟨htypeCheck, hrest⟩, hlint, _⟩ => ⟨htypeCheck, hlint, hrest⟩⟩

end Code

/-! ## Tools for infrastructure one after another -/

section Infra

variable {directory : Path} {analysis : InfraAnalysis} {deep : Bool} {report : InfraReport}

theorem analyzeInfra_eq_ok (hasked : view.askDir directory = .ok true) :
    Id.run (analyzeInfra answers view directory targets analysis deep) = .ok report ↔
      Id.run (runIf (analysis.includes .format) answers "terraform fmt" ⟨formatWords, directory⟩
        (formatReport view directory targets)) = .ok report.format ∧
      Id.run (lintConfigIf (analysis.includes .lint) answers view directory targets deep) =
        .ok report.lint ∧
      Id.run (runIf (analysis.includes .security) answers "trivy" ⟨securityWords, directory⟩
        (securityReport view directory targets)) = .ok report.security ∧
      report.targets = targets ∧ report.deep = deep ∧ report.error = none := by
  rw [analyzeInfra_of_there hasked, bind_eq_ok]
  constructor
  · rintro ⟨format, hformat, h⟩
    obtain ⟨lint, hlint, h⟩ := bind_eq_ok.mp h
    obtain ⟨security, hsecurity, h⟩ := bind_eq_ok.mp h
    cases h
    exact ⟨hformat, hlint, hsecurity, rfl, rfl, rfl⟩
  · rintro ⟨hformat, hlint, hsecurity, htargets, hdeep, herror⟩
    refine ⟨_, hformat, bind_eq_ok.mpr ⟨_, hlint, bind_eq_ok.mpr ⟨_, hsecurity, ?_⟩⟩⟩
    rw [← htargets, ← hdeep]
    cases report
    cases herror
    rfl

theorem run_lintConfigIf_false :
    Id.run (lintConfigIf false answers view directory targets deep) = .ok none := rfl

theorem all_eq_ok_iff :
    Id.run (analyzeInfra answers view directory targets .all deep) = .ok report ↔
      Id.run (analyzeInfra answers view directory targets .format deep) =
          .ok { report with lint := none, security := none } ∧
      Id.run (analyzeInfra answers view directory targets .lint deep) =
          .ok { report with format := none, security := none } ∧
      Id.run (analyzeInfra answers view directory targets .security deep) =
          .ok { report with format := none, lint := none } := by
  rcases hasked : view.askDir directory with fault | _ | _
  · simp only [analyzeInfra_of_untold hasked, reduceCtorEq, and_self]
  · simp only [analyzeInfra_of_missing hasked, Except.ok.injEq]
    cases report
    simp only [InfraReport.mk.injEq]
    tauto
  · simp only [analyzeInfra_eq_ok hasked, show InfraAnalysis.format.includes .lint = false from rfl,
      show InfraAnalysis.format.includes .security = false from rfl,
      show InfraAnalysis.lint.includes .format = false from rfl,
      show InfraAnalysis.lint.includes .security = false from rfl,
      show InfraAnalysis.security.includes .format = false from rfl,
      show InfraAnalysis.security.includes .lint = false from rfl, run_runIf_false,
      run_lintConfigIf_false, true_and]
    exact ⟨fun ⟨hformat, hlint, hsecurity, hrest⟩ =>
        ⟨⟨hformat, hrest⟩, ⟨hlint, hrest⟩, hsecurity, hrest⟩,
      fun ⟨⟨hformat, hrest⟩, ⟨hlint, _⟩, hsecurity, _⟩ => ⟨hformat, hlint, hsecurity, hrest⟩⟩

end Infra

/-! ## Isolation -/

/-- The tools for code do not get in each other's way: an analysis gives a report exactly if what its tools
print allows for one; both tools together have the reports that each has alone, in whatever order their
answers come; and the commands are those of the tools that are wanted. -/
structure CodeIsolated (answers : Command → Answer) (view : View) (root : Path) (workspace : String)
    (targets : List String) : Prop where
  ends : ∀ analysis, Ends (Id.run (analyzeCode answers view root workspace targets analysis)) ↔
    CodeReportable answers view (root.join (.ofString workspace)) targets analysis
  endsTogether : Ends (Id.run (analyzeCode answers view root workspace targets .both)) ↔
    Ends (Id.run (analyzeCode answers view root workspace targets .typeCheck)) ∧
      Ends (Id.run (analyzeCode answers view root workspace targets .lint))
  together : ∀ report, Id.run (analyzeCode answers view root workspace targets .both) = .ok report ↔
    Id.run (analyzeCode answers view root workspace targets .typeCheck) =
        .ok { report with lint := none } ∧
      Id.run (analyzeCode answers view root workspace targets .lint) =
        .ok { report with typeCheck := none }
  atOnce : ∀ analysis order report,
    analyzeAtOnce answers view root workspace targets analysis order = .ok report ↔
      Id.run (analyzeCode answers view root workspace targets analysis) = .ok report
  commands : ∀ analysis, analyzeCode (noting answers) view root workspace targets analysis [] =
    (Id.run (analyzeCode answers view root workspace targets analysis),
      codeCommands view (root.join (.ofString workspace)) analysis)

/-- The tools for infrastructure do not get in each other's way: an analysis gives a report exactly if what
its tools print allows for one; all tools together have the reports that each has alone; and the commands are
those of the tools that are wanted, up to the first fault that gets past a guard. -/
structure InfraIsolated (answers : Command → Answer) (view : View) (directory : Path)
    (targets : List String) (deep : Bool) : Prop where
  ends : ∀ analysis, Ends (Id.run (analyzeInfra answers view directory targets analysis deep)) ↔
    InfraReportable answers view directory targets analysis deep
  endsTogether : Ends (Id.run (analyzeInfra answers view directory targets .all deep)) ↔
    Ends (Id.run (analyzeInfra answers view directory targets .format deep)) ∧
      Ends (Id.run (analyzeInfra answers view directory targets .lint deep)) ∧
      Ends (Id.run (analyzeInfra answers view directory targets .security deep))
  together : ∀ report, Id.run (analyzeInfra answers view directory targets .all deep) = .ok report ↔
    Id.run (analyzeInfra answers view directory targets .format deep) =
        .ok { report with lint := none, security := none } ∧
      Id.run (analyzeInfra answers view directory targets .lint deep) =
        .ok { report with format := none, security := none } ∧
      Id.run (analyzeInfra answers view directory targets .security deep) =
        .ok { report with format := none, lint := none }
  commands : ∀ analysis, ∃ given,
    analyzeInfra (noting answers) view directory targets analysis deep [] =
        (Id.run (analyzeInfra answers view directory targets analysis deep), given) ∧
      given <+: infraCommands answers view directory analysis deep ∧
      (Ends (Id.run (analyzeInfra answers view directory targets analysis deep)) →
        given = infraCommands answers view directory analysis deep)

/-- **Tools together have the reports that they have alone**, whatever the others answer and in whatever order
the answers come, and only their commands are given, each one once. There is a report of all of them exactly
if each of them alone has one. -/
theorem alone_and_together (answers : Command → Answer) (view : View) (targets : List String) :
    (∀ root workspace, CodeIsolated answers view root workspace targets) ∧
      ∀ directory deep, InfraIsolated answers view directory targets deep := by
  refine ⟨fun root workspace => ⟨fun _ => ends_analyzeCode, ?_, fun _ => both_eq_ok_iff,
    fun _ order _ => analyzeAtOnce_eq_ok order, fun _ => run_analyzeCode_noting []⟩,
    fun directory deep => ⟨fun _ => ends_analyzeInfra, ?_, fun _ => all_eq_ok_iff, fun analysis => ?_⟩⟩
  · rw [ends_analyzeCode, ends_analyzeCode, ends_analyzeCode]
    exact ⟨fun h => ⟨⟨h.told, fun hasked _ => h.typeCheck hasked rfl, fun _ h => (by cases h)⟩,
        h.told, fun _ h => (by cases h), fun hasked _ => h.lint hasked rfl⟩,
      fun ⟨htypes, hlint⟩ => ⟨htypes.told, fun hasked _ => htypes.typeCheck hasked rfl,
        fun hasked _ => hlint.lint hasked rfl⟩⟩
  · rw [ends_analyzeInfra, ends_analyzeInfra, ends_analyzeInfra, ends_analyzeInfra]
    exact ⟨fun h => ⟨⟨h.told, fun hasked _ => h.format hasked rfl, fun _ h => (by cases h),
          fun _ h => (by cases h)⟩,
        ⟨h.told, fun _ h => (by cases h), fun hasked _ => h.lint hasked rfl, fun _ h => (by cases h)⟩,
        h.told, fun _ h => (by cases h), fun _ h => (by cases h), fun hasked _ => h.security hasked rfl⟩,
      fun ⟨hformat, hlint, hsecurity⟩ => ⟨hformat.told, fun hasked _ => hformat.format hasked rfl,
        fun hasked _ => hlint.lint hasked rfl, fun hasked _ => hsecurity.security hasked rfl⟩⟩
  · exact gives_analyzeInfra []

/-- The linter for infrastructure prints the text; the other tools are content and print nothing. -/
def wordy (text : List Char) (command : Command) : Answer :=
  if command.words = ["tflint", "--recursive", "--format=json"] then
    .ok { exit := 0, out := String.ofList text }
  else .ok { exit := 0 }

theorem not_ends_wordy {text : List Char} {digits : ℕ}
    (hblank : (Text.trimChars text).isEmpty = false)
    (hlong : Json.parse text = .error (.longInteger digits)) :
    InfraExpected (wordy text) bareInfra (.ofString "/infra") [] .all false ∧
      ¬ Ends (Id.run (analyzeInfra (wordy text) bareInfra (.ofString "/infra") [] .all false)) := by
  have hanswer : configAnswer (wordy text) bareInfra (.ofString "/infra") false =
      .ok { exit := 0, out := String.ofList text } := rfl
  rw [← String.toList_ofList (l := text)] at hblank hlong
  have hexpected : InfraExpected (wordy text) bareInfra (.ofString "/infra") [] .all false := by
    refine ⟨fun _ h => absurd h List.not_mem_nil, fun _ printed hprinted => ?_,
      fun _ printed hprinted => ?_, fun _ printed hprinted => ?_⟩
    · cases hprinted
      exact fun _ h => absurd h List.not_mem_nil
    · cases hanswer.symm.trans hprinted
      intro members hprints
      cases hlong.symm.trans hprints.2
    · cases hprinted
      intro members hprints
      cases hprints.1
  exact ⟨hexpected, hexpected.not_ends (by rfl) rfl hanswer hblank hlong⟩

/-- The formatter, which has a report alone, has none in an analysis of everything in which the linter prints a
number of one digit too many. -/
theorem not_forall_together :
    ¬ ∀ (answers : Command → Answer) (view : View) (directory : Path) (targets : List String)
        (deep : Bool), InfraExpected answers view directory targets .all deep →
      ∀ alone, Id.run (analyzeInfra answers view directory targets .format deep) = .ok alone →
        ∃ report, Id.run (analyzeInfra answers view directory targets .all deep) = .ok report ∧
          report.format = alone.format := by
  intro hall
  have hblank : (Text.trimChars (numberedRun 4301)).isEmpty = false := by decide +kernel
  have hparse : isTooLong (Json.parse (numberedRun 4301)) = true := by decide +kernel
  obtain ⟨digits, hlong⟩ := exists_of_isTooLong hparse
  obtain ⟨hexpected, hnot⟩ := not_ends_wordy hblank hlong
  have hformat : InfraReportable (wordy (numberedRun 4301)) bareInfra (.ofString "/infra") [] .format
      false := by
    refine ⟨told_bareInfra, fun _ _ printed hprinted => .inl ?_, fun _ h => (by cases h),
      fun _ h => (by cases h)⟩
    cases hprinted
    rfl
  obtain ⟨alone, halone⟩ := ends_analyzeInfra.mpr hformat
  obtain ⟨report, hreport, -⟩ := hall _ _ _ _ _ hexpected alone halone
  exact hnot ⟨report, hreport⟩

end Lintel.Tool
