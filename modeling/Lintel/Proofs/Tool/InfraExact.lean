import Lintel.Proofs.Tool.Judged

/-!
# Exact reports about infrastructure

Where the tools for infrastructure print what is expected of them, the report of an analysis is exact.

* `FormatSays`, `ConfigSays`, `SecuritySays`: what the report of a tool says of what it printed;
* `SecurityIssue.mergeSort_eq`: the misconfigurations in the order of their tiers;
* **`analyzeInfra_exact_iff`**: an analysis of tools that print what is expected (`InfraExpected`) gives a
  report exactly if the numbers in JSON can be read and the directory can be looked up (`InfraReturns`), and
  its reports are exact.
-/

namespace Lintel.Tool

open Files (NameTooLong Path View AllPlaced Placed Inside ValueInside IsRead IsNormal placeOf placeText)

variable {view : View} {directory : Path} {targets : List String} {printed : Printed}

/-! ## Format -/

/-- What is expected of the formatter: names that have a place. -/
def FormatExpected (directory : Path) (printed : Printed) : Prop :=
  ∀ issue ∈ FormatIssue.ofOutput printed.out, Placed directory issue.file

/-- The issue with a place for its file. -/
def FormatIssue.withPlace (_issue : FormatIssue) (place : Files.Place) : FormatIssue :=
  ⟨placeText place⟩

/-- What the report about the formatter says: it passes if the formatter is content, or if it lists
files, and none inside the targets; the issues are the files inside that a failing formatter lists. -/
structure FormatSays (view : View) (directory : Path) (targets : List String) (printed : Printed)
    (report : ToolReport FormatIssue) : Prop where
  content : printed.exit = 0 → report.passed = true ∧ report.issues = []
  failing : printed.exit ≠ 0 → Narrowed view directory targets FormatIssue.file FormatIssue.withPlace
    (FormatIssue.ofOutput printed.out) report
  normal : ∀ issue ∈ report.issues, ∃ place, IsNormal place ∧ issue.file = placeText place

namespace ConfigIssue

/-- The severity that an entry gives: that of its rule, else its own, else a warning. -/
def severityIn (entry : Json) : Json :=
  (((entry.objectIn "rule").memberOr "severity" .null).orElse
    (entry.memberOr "severity" .null)).orElse (.str "warning")

/-- The file that an entry is about. -/
def fileIn (entry : Json) : Json := (entry.objectIn "range").memberOr "filename" (.str "")

/-- The issue is what an entry says. -/
structure Tells (issue : ConfigIssue) (entry : Json) : Prop where
  file : issue.file = fileIn entry
  line : ((entry.objectIn "range").objectIn "start").getNumber "line" = .ok issue.line
  rule : issue.rule = (entry.objectIn "rule").memberOr "name" (.str "")
  severity : issue.severity = Unicode.toLower (severityIn entry).shown
  message : issue.message = entry.memberOr "message" (.str "")

theorem severity_of_severityOf {entry : Json} {severity : String} (h : severityOf entry = .ok severity) :
    severity = Unicode.toLower (severityIn entry).shown := by
  rw [severityOf_eq] at h
  simp only [bind_eq_ok, Json.getObject_eq_ok, Json.get_eq_ok, pure_eq_ok, Except.ok.injEq] at h
  obtain ⟨rule, ⟨-, rfl⟩, ofRule, ⟨-, rfl⟩, chosen, hchosen, rfl⟩ := h
  have horElse : chosen = ((entry.objectIn "rule").memberOr "severity" .null).orElse
      (entry.memberOr "severity" .null) := by
    rw [Json.orElse]
    split_ifs at hchosen ⊢
    · exact (Json.get_eq_ok.mp hchosen).2
    · exact (Except.ok.inj hchosen).symm
  rw [severityIn, horElse]

theorem tells_of_ofEntry {entry : Json} {issue : ConfigIssue} (h : ofEntry entry = .ok issue) :
    issue.Tells entry := by
  simp only [ofEntry, bind_eq_ok, Json.getObject_eq_ok, Json.getField_eq_ok, pure_eq_ok,
    Except.ok.injEq] at h
  obtain ⟨range, ⟨-, rfl⟩, file, ⟨-, rfl⟩, start, ⟨-, rfl⟩, line, hline, rule, ⟨-, rfl⟩, name, ⟨-, rfl⟩,
    severity, hseverity, message, ⟨-, rfl⟩, rfl⟩ := h
  exact ⟨rfl, hline, rfl, severity_of_severityOf hseverity, rfl⟩

theorem ofOutput_of_prints {output : String} {members : List (String × Json)}
    (h : Prints output (.obj members)) : ofOutput output = ofReport (.obj members) := by
  have hread : readOutput "tflint" "tflint" output = .ok (.obj members) := readOutput_eq_ok.mpr h
  rw [ofOutput, hread]
  rfl

theorem tells_of_ofReport {value : Json} {found : List ConfigIssue} {errors : List Json}
    (h : ofReport value = .ok (found, errors)) :
    List.Forall₂ Tells found (value.listIn "issues").items ∧
      errors = (value.listIn "errors").items.map fun error => error.memberOr "message" (.str "") := by
  simp only [ofReport, bind_eq_ok, Json.getElements_eq_ok, pure_eq_ok, Except.ok.injEq,
    Prod.mk.injEq] at h
  obtain ⟨issues, ⟨-, -, rfl⟩, found, hfound, listed, ⟨-, -, rfl⟩, messages, hmessages, rfl, rfl⟩ := h
  refine ⟨(mapM_eq_ok.mp hfound).flip.imp fun issue entry => tells_of_ofEntry, ?_⟩
  have hfields : List.Forall₂ (fun error message => message = error.memberOr "message" (.str ""))
      (value.listIn "errors").items messages :=
    (mapM_eq_ok.mp hmessages).imp fun error message h => (Json.getField_eq_ok.mp h).2
  rw [← List.forall₂_eq_eq_eq, List.forall₂_map_right_iff]
  exact hfields.flip

end ConfigIssue

/-- What is expected of the linter: if it prints an object, one of the right types, with issues about files
that have a place, and with errors that have a text. -/
def ConfigExpected (directory : Path) (printed : Printed) : Prop :=
  ∀ members, Prints printed.out (.obj members) →
    ConfigIssue.OutputShape Json.IsNumber (.obj members) ∧
    (∀ entry ∈ ((Json.obj members).listIn "issues").items,
      ∃ name, ConfigIssue.fileIn entry = .str name ∧ Placed directory name) ∧
    ∀ error ∈ ((Json.obj members).listIn "errors").items,
      ∃ text, error.memberOr "message" (.str "") = .str text

/-- The lines that the linter names are finite. -/
def ConfigFinite (printed : Printed) : Prop :=
  ∀ members, Prints printed.out (.obj members) → ConfigIssue.OutputFinite (.obj members)

/-- What the report about the linter says: the issues are the entries about files inside the targets, and
it passes if none of them is an error and the linter names no errors of its own. Output that is no object
is a failure. -/
structure ConfigSays (view : View) (directory : Path) (targets : List String) (printed : Printed)
    (report : ToolReport ConfigIssue) : Prop where
  read : ∀ members, Prints printed.out (.obj members) →
    List.Forall₂ ConfigIssue.Tells report.issues
      (((Json.obj members).listIn "issues").items.filter fun entry =>
        ValueInside view directory targets (ConfigIssue.fileIn entry)) ∧
    (report.passed = true ↔ ((Json.obj members).listIn "errors").items = [] ∧
      ∀ issue ∈ report.issues, issue.severity ≠ "error")
  unread : (∀ members, ¬ Prints printed.out (.obj members)) →
    report.passed = false ∧ report.issues = [] ∧ report.error.isSome = true

theorem ConfigExpected.namesFile (h : ConfigExpected directory printed) (hall : AllPlaced targets)
    {members : List (String × Json)} (hprints : Prints printed.out (.obj members))
    {found : List ConfigIssue}
    (htells : List.Forall₂ ConfigIssue.Tells found ((Json.obj members).listIn "issues").items) :
    ∀ issue ∈ found, Files.NamesFile directory targets issue.file :=
  forall_mem_of_forall₂ htells (h members hprints).2.1 fun _ _ htells hfile =>
    .inr ⟨hall, htells.file ▸ hfile⟩

theorem ConfigExpected.isText (h : ConfigExpected directory printed)
    {members : List (String × Json)} (hprints : Prints printed.out (.obj members)) {errors : List Json}
    (herrors : errors = ((Json.obj members).listIn "errors").items.map fun error =>
      error.memberOr "message" (.str "")) :
    ∀ error ∈ errors, ∃ text, error = .str text := by
  rw [herrors]
  intro message hmessage
  obtain ⟨error, herror, rfl⟩ := List.mem_map.mp hmessage
  exact (h members hprints).2.2 error herror

theorem ConfigIssue.prints_of_ofOutput {output : String} {found : List ConfigIssue} {errors : List Json}
    (h : ofOutput output = .ok (found, errors)) :
    ∃ members, Prints output (.obj members) ∧ ofReport (.obj members) = .ok (found, errors) := by
  obtain ⟨value, hvalue, hrest⟩ := bind_eq_ok.mp h
  cases value with
  | obj members => exact ⟨members, readOutput_eq_ok.mp hvalue, hrest⟩
  | _ => cases hrest

theorem ConfigExpected.reportable_iff (h : ConfigExpected directory printed)
    (hall : AllPlaced targets) :
    ConfigReportable directory targets printed ↔ NoLongInteger printed.out ∧ ConfigFinite printed := by
  have hread : ∀ found errors, ConfigIssue.ofOutput printed.out = .ok (found, errors) →
      (∀ issue ∈ found, Files.NamesFile directory targets issue.file) ∧
        ∀ error ∈ errors, ∃ text, error = .str text := by
    intro found errors hfound
    obtain ⟨members, hprints, hreport⟩ := ConfigIssue.prints_of_ofOutput hfound
    obtain ⟨htells, herrors⟩ := ConfigIssue.tells_of_ofReport hreport
    exact ⟨h.namesFile hall hprints htells, h.isText hprints herrors⟩
  rw [ConfigReportable, and_iff_left hread, ConfigFinite]
  refine and_congr_right fun _ => forall₂_congr fun members hprints => ?_
  exact ConfigIssue.outputShape_isNumeric.trans (and_iff_right (h members hprints).1)

namespace SecurityIssue

/-- The issues tier by tier, the most severe first, those of a tier in their order. -/
def byTier (issues : List SecurityIssue) : List SecurityIssue :=
  SecurityTier.all.flatMap fun tier => issues.filter (·.tier = tier)

theorem mem_byTier {issue : SecurityIssue} {issues : List SecurityIssue} :
    issue ∈ byTier issues ↔ issue ∈ issues := by
  have hall : issue.tier ∈ SecurityTier.all := by cases issue.tier <;> decide
  simp [byTier, hall]

theorem byTier_of_pairwise {issues : List SecurityIssue}
    (h : issues.Pairwise fun a b => atLeast a b = true) : byTier issues = issues := by
  induction issues with
  | nil => rfl
  | cons issue issues ih =>
    obtain ⟨hfirst, hrest⟩ := List.pairwise_cons.mp h
    have hnone : ∀ tier, tier.rank < issue.tier.rank →
        issues.filter (fun other => decide (other.tier = tier)) = [] := by
      intro tier htier
      refine List.filter_eq_nil_iff.mpr fun other hother => ?_
      have hle := hfirst other hother
      simp only [atLeast, decide_eq_true_eq] at hle ⊢
      rintro rfl
      omega
    have hback := ih hrest
    simp only [byTier, SecurityTier.all, List.flatMap_cons, List.flatMap_nil] at hback ⊢
    -- the tiers before that of the first issue are empty
    cases htier : issue.tier <;> rw [htier] at hnone <;>
      simp_all [SecurityTier.rank, -List.filter_eq_nil_iff]

/-- **Sorting is stable**: it puts the issues in the order of their tiers and leaves those of a tier in
their order. -/
theorem mergeSort_eq (issues : List SecurityIssue) : issues.mergeSort atLeast = byTier issues := by
  have htrans : ∀ a b c : SecurityIssue, atLeast a b = true → atLeast b c = true → atLeast a c = true := by
    simp only [atLeast, decide_eq_true_eq]
    exact fun a b c => le_trans
  have htotal : ∀ a b : SecurityIssue, (atLeast a b || atLeast b a) = true := by
    simp only [atLeast, Bool.or_eq_true, decide_eq_true_eq]
    exact fun a b => le_total _ _
  have hperm : (issues.mergeSort atLeast).Perm issues := List.mergeSort_perm issues atLeast
  have hsame : ∀ tier, (issues.mergeSort atLeast).filter (fun issue => decide (issue.tier = tier)) =
      issues.filter fun issue => decide (issue.tier = tier) := by
    intro tier
    have hsub : (issues.filter fun issue => decide (issue.tier = tier)).Sublist
        (issues.mergeSort atLeast) := by
      refine List.sublist_mergeSort htrans htotal ?_ List.filter_sublist
      rw [List.pairwise_filter]
      refine List.pairwise_of_forall_mem_list fun a _ b _ ha hb => ?_
      simp_all [atLeast]
    have hfilter := hsub.filter fun issue => decide (issue.tier = tier)
    rw [List.filter_filter] at hfilter
    simp only [Bool.and_self] at hfilter
    exact (hfilter.eq_of_length (hperm.filter _).length_eq.symm).symm
  rw [← byTier_of_pairwise (List.pairwise_mergeSort htrans htotal issues), byTier, byTier]
  simp only [hsame]

/-- The issue is what an entry of a result says. -/
structure Tells (issue : SecurityIssue) (result entry : Json) : Prop where
  id : issue.id = entry.memberOr "ID" (.str "")
  title : issue.title = entry.memberOr "Title" (.str "")
  tier : SecurityTier.ofJson (entry.memberOr "Severity" .null) = .ok issue.tier
  message : issue.message = entry.memberOr "Message" (.str "")
  resolution : issue.resolution = entry.memberOr "Resolution" (.str "")
  file : issue.file = result.memberOr "Target" (.str "")

/-- The misconfigurations of a result, each with the result. -/
def findingsOf (result : Json) : List (Json × Json) :=
  (result.listIn "Misconfigurations").items.map fun entry => (result, entry)

/-- The misconfigurations in a report, in its order, each with its result. -/
def findings (value : Json) : List (Json × Json) := (value.listIn "Results").items.flatMap findingsOf

theorem tells_of_ofEntry {result entry : Json} {issue : SecurityIssue}
    (h : ofEntry result entry = .ok issue) : issue.Tells result entry := by
  simp only [ofEntry, bind_eq_ok, Json.get_eq_ok, Json.getField_eq_ok, pure_eq_ok,
    Except.ok.injEq] at h
  obtain ⟨id, ⟨-, rfl⟩, title, ⟨-, rfl⟩, word, ⟨-, rfl⟩, tier, htier, message, ⟨-, rfl⟩, resolution,
    ⟨-, rfl⟩, file, ⟨-, rfl⟩, rfl⟩ := h
  exact ⟨rfl, rfl, htier, rfl, rfl, rfl⟩

theorem tells_of_ofResult {result : Json} {found : List SecurityIssue}
    (h : ofResult result = .ok found) :
    List.Forall₂ (fun issue finding => issue.Tells finding.1 finding.2) found (findingsOf result) := by
  simp only [ofResult, bind_eq_ok, Json.getElements_eq_ok] at h
  obtain ⟨entries, ⟨-, -, rfl⟩, hfound⟩ := h
  rw [findingsOf, List.forall₂_map_right_iff]
  exact (mapM_eq_ok.mp hfound).flip.imp fun issue entry => tells_of_ofEntry

theorem ofOutput_of_prints {output : String} {members : List (String × Json)}
    (h : Prints output (.obj members)) : ofOutput output = ofReport (.obj members) := by
  have hread : readOutput "trivy" "trivy" output = .ok (.obj members) := readOutput_eq_ok.mpr h
  rw [ofOutput, hread]
  rfl

theorem prints_of_ofOutput {output : String} {found : List SecurityIssue}
    (h : ofOutput output = .ok found) :
    ∃ members, Prints output (.obj members) ∧ ofReport (.obj members) = .ok found := by
  obtain ⟨value, hvalue, hrest⟩ := bind_eq_ok.mp h
  cases value with
  | obj members => exact ⟨members, readOutput_eq_ok.mp hvalue, hrest⟩
  | _ => cases hrest

theorem tells_of_ofReport {value : Json} {found : List SecurityIssue} (h : ofReport value = .ok found) :
    ∃ issues, found = byTier issues ∧
      List.Forall₂ (fun issue finding => issue.Tells finding.1 finding.2) issues (findings value) := by
  simp only [ofReport, bind_eq_ok, Json.getElements_eq_ok, pure_eq_ok, Except.ok.injEq] at h
  obtain ⟨results, ⟨-, -, rfl⟩, founds, hfounds, rfl⟩ := h
  exact ⟨founds.flatten, mergeSort_eq _, forall₂_flatten hfounds fun _ _ => tells_of_ofResult⟩

end SecurityIssue

/-- What is expected of the scanner: if it prints an object, one with results about files that have a
place. -/
def SecurityExpected (directory : Path) (printed : Printed) : Prop :=
  ∀ members, Prints printed.out (.obj members) →
    SecurityIssue.OutputShape (.obj members) ∧
    ∀ result ∈ ((Json.obj members).listIn "Results").items,
      ∃ name, result.memberOr "Target" (.str "") = .str name ∧ Placed directory name

/-- What the report about the scanner says: the issues are the misconfigurations of the results about
targets inside, tier by tier, and it passes if there are none. Output that is no object is a failure. -/
structure SecuritySays (view : View) (directory : Path) (targets : List String) (printed : Printed)
    (report : ToolReport SecurityIssue) : Prop where
  read : ∀ members, Prints printed.out (.obj members) →
    let inside := (SecurityIssue.findings (.obj members)).filter fun finding =>
      ValueInside view directory targets (finding.1.memberOr "Target" (.str ""))
    (∃ issues, report.issues = SecurityIssue.byTier issues ∧
      List.Forall₂ (fun issue finding => issue.Tells finding.1 finding.2) issues inside) ∧
    (report.passed = true ↔ inside = [])
  unread : (∀ members, ¬ Prints printed.out (.obj members)) →
    report.passed = false ∧ report.issues = [] ∧ report.error.isSome = true

theorem SecurityExpected.namesFile (h : SecurityExpected directory printed) (hall : AllPlaced targets)
    {members : List (String × Json)} (hprints : Prints printed.out (.obj members))
    {issues : List SecurityIssue}
    (htells : List.Forall₂ (fun issue finding => issue.Tells finding.1 finding.2) issues
      (SecurityIssue.findings (.obj members))) :
    ∀ issue ∈ SecurityIssue.byTier issues, Files.NamesFile directory targets issue.file := by
  intro issue hissue
  refine forall_mem_of_forall₂ htells (Q := fun finding => Files.NamesFile directory targets
    (finding.1.memberOr "Target" (.str ""))) (fun finding hfinding => ?_)
    (fun _ _ htells hfile => htells.file ▸ hfile) issue (SecurityIssue.mem_byTier.mp hissue)
  obtain ⟨result, hresult, hfinding⟩ := List.mem_flatMap.mp hfinding
  obtain ⟨entry, -, rfl⟩ := List.mem_map.mp hfinding
  exact .inr ⟨hall, (h members hprints).2 result hresult⟩

theorem SecurityExpected.reportable_iff (h : SecurityExpected directory printed)
    (hall : AllPlaced targets) :
    SecurityReportable directory targets printed ↔ NoLongInteger printed.out := by
  refine ⟨fun hreportable => hreportable.1.1, fun hshort => ⟨⟨hshort, fun members hprints =>
    (h members hprints).1⟩, fun found hfound => ?_⟩⟩
  obtain ⟨members, hprints, hreport⟩ := SecurityIssue.prints_of_ofOutput hfound
  obtain ⟨issues, rfl, htells⟩ := SecurityIssue.tells_of_ofReport hreport
  exact h.namesFile hall hprints htells

/-- What is expected of the tools for infrastructure. -/
structure InfraExpected (run : Command → Answer) (view : View) (directory : Path)
    (targets : List String) (analysis : InfraAnalysis) (deep : Bool) : Prop where
  targets : AllPlaced targets
  format : analysis.includes .format = true →
    ∀ printed, run ⟨formatWords, directory⟩ = .ok printed → FormatExpected directory printed
  lint : analysis.includes .lint = true →
    ∀ printed, configAnswer run view directory deep = .ok printed → ConfigExpected directory printed
  security : analysis.includes .security = true →
    ∀ printed, run ⟨securityWords, directory⟩ = .ok printed → SecurityExpected directory printed

/-- It can be told whether the directory is there, and if so, no whole number in the JSON that is read has
too many digits, and the lines that the linter names are finite. -/
structure InfraReturns (run : Command → Answer) (view : View) (directory : Path)
    (analysis : InfraAnalysis) (deep : Bool) : Prop where
  told : ¬ NameTooLong view directory
  lint : view.askDir directory = .ok true → analysis.includes .lint = true →
    ∀ printed, configAnswer run view directory deep = .ok printed →
      NoLongInteger printed.out ∧ ConfigFinite printed
  security : view.askDir directory = .ok true → analysis.includes .security = true →
    ∀ printed, run ⟨securityWords, directory⟩ = .ok printed → NoLongInteger printed.out

/-- The report about infrastructure is exact: in a directory it tells of each tool that is wanted, and it
is a success if all of them passed; without the directory there is only the error. -/
structure InfraReport.Exact (report : InfraReport) (run : Command → Answer) (view : View)
    (directory : Path) (targets : List String) (analysis : InfraAnalysis) (deep : Bool) : Prop where
  missing : view.askDir directory = .ok false → report.format = none ∧ report.lint = none ∧
    report.security = none ∧ report.error.isSome = true
  format : view.askDir directory = .ok true → ReportIf (analysis.includes .format)
    (Accounts (run ⟨formatWords, directory⟩) (FormatSays view directory targets)) report.format
  lint : view.askDir directory = .ok true → ReportIf (analysis.includes .lint)
    (Accounts (configAnswer run view directory deep) (ConfigSays view directory targets)) report.lint
  security : view.askDir directory = .ok true → ReportIf (analysis.includes .security)
    (Accounts (run ⟨securityWords, directory⟩) (SecuritySays view directory targets)) report.security
  success : report.success = true ↔ view.askDir directory = .ok true ∧
    (analysis.includes .format = true → ∃ own, report.format = some own ∧ own.passed = true) ∧
    (analysis.includes .lint = true → ∃ own, report.lint = some own ∧ own.passed = true) ∧
    (analysis.includes .security = true → ∃ own, report.security = some own ∧ own.passed = true)

section Infra

variable {run : Command → Answer} {analysis : InfraAnalysis} {deep : Bool}

theorem InfraExpected.reportable_iff (h : InfraExpected run view directory targets analysis deep) :
    InfraReportable run view directory targets analysis deep ↔
      InfraReturns run view directory analysis deep := by
  have hformat : analysis.includes .format = true →
      ∀ printed, run ⟨formatWords, directory⟩ = .ok printed →
        FormatReportable directory targets printed :=
    fun hwanted printed hprinted => .inr fun issue hissue =>
      ⟨h.targets, h.format hwanted printed hprinted issue hissue⟩
  have hlint : analysis.includes .lint = true →
      ∀ printed, configAnswer run view directory deep = .ok printed →
        (ConfigReportable directory targets printed ↔ NoLongInteger printed.out ∧ ConfigFinite printed) :=
    fun hwanted printed hprinted => (h.lint hwanted printed hprinted).reportable_iff h.targets
  have hsecurity : analysis.includes .security = true →
      ∀ printed, run ⟨securityWords, directory⟩ = .ok printed →
        (SecurityReportable directory targets printed ↔ NoLongInteger printed.out) :=
    fun hwanted printed hprinted => (h.security hwanted printed hprinted).reportable_iff h.targets
  constructor
  · exact fun hreportable => ⟨hreportable.told, fun hasked hwanted printed hprinted =>
      (hlint hwanted printed hprinted).mp (hreportable.lint hasked hwanted printed hprinted),
      fun hasked hwanted printed hprinted =>
        (hsecurity hwanted printed hprinted).mp (hreportable.security hasked hwanted printed hprinted)⟩
  · exact fun hreturns => ⟨hreturns.told, fun _ => hformat, fun hasked hwanted printed hprinted =>
      (hlint hwanted printed hprinted).mpr (hreturns.lint hasked hwanted printed hprinted),
      fun hasked hwanted printed hprinted =>
        (hsecurity hwanted printed hprinted).mpr (hreturns.security hasked hwanted printed hprinted)⟩

end Infra

/-- A view of a single directory of infrastructure without files. -/
def bareInfra : View := ⟨⟨[(["infra"], .dir)]⟩, []⟩

theorem told_bareInfra : ¬ NameTooLong bareInfra (.ofString "/infra") :=
  Files.ends_askDir_iff.mp (ends_iff_toBool.mpr (by decide +kernel))

theorem InfraExpected.not_ends {run : Command → Answer} {analysis : InfraAnalysis} {deep : Bool}
    {digits : ℕ} (h : InfraExpected run view directory targets analysis deep)
    (hasked : view.askDir directory = .ok true) (hlint : analysis.includes .lint = true)
    (hanswer : configAnswer run view directory deep = .ok printed)
    (hblank : (Text.trimChars printed.out.toList).isEmpty = false)
    (hlong : Json.parse printed.out.toList = .error (.longInteger digits)) :
    ¬ Ends (Id.run (analyzeInfra run view directory targets analysis deep)) := fun hends =>
  ((h.reportable_iff.mp (ends_analyzeInfra.mp hends)).lint hasked hlint printed hanswer).1 hblank digits
    hlong

/-- A report of the linter without issues that tells the number of its run, a row of ones. -/
def numberedRun (digits : ℕ) : List Char :=
  "\x7b\"issues\": [], \"errors\": [], \"run\": ".toList ++ List.replicate digits '1' ++ ['\x7d']

/-- Reading a value came to a whole number of too many digits. -/
def isTooLong : Except Json.Unreadable Json → Bool
  | .error (.longInteger _) => true
  | _ => false

theorem exists_of_isTooLong {x : Except Json.Unreadable Json} (h : isTooLong x = true) :
    ∃ digits, x = .error (.longInteger digits) := by
  cases x with
  | ok value => cases h
  | error flaw =>
    cases flaw with
    | misplaced fault => cases h
    | longInteger digits => exact ⟨digits, rfl⟩

end Lintel.Tool
