import Lintel.Proofs.Tool.Guard

/-!
# Output of the Terraform tools

* `ConfigIssue.ends_ofEntry`, `SecurityIssue.ends_ofResult`: the shapes of the entries of the linter and
  of the security scanner;
* **`settles_formatReport`**, **`settles_configReport`**, **`settles_securityReport`**: the exact outputs
  of which a report can be made.
-/

namespace Lintel.Tool

open Files (Path View NamesFile AllPlaced Placed)

variable {view : View} {directory : Path} {targets : List String} {printed : Printed}

/-! ## Format -/

/-- A report can be made of what the formatter printed: it is content, or the files that it lists have a
place. -/
def FormatReportable (directory : Path) (targets : List String) (printed : Printed) : Prop :=
  printed.exit = 0 ∨ ∀ issue ∈ FormatIssue.ofOutput printed.out,
    AllPlaced targets ∧ Placed directory issue.file

theorem FormatIssue.narrow?_eq (issue : FormatIssue) :
    narrow? view directory targets issue =
      Files.keepWithin view directory targets issue.file fun place => ⟨Files.placeText place⟩ := rfl

theorem formatReport_of_ne (hexit : printed.exit ≠ 0) :
    formatReport view directory targets printed =
      (if (FormatIssue.ofOutput printed.out).isEmpty then .error (silentFormat printed)
      else do
        let kept ← (FormatIssue.ofOutput printed.out).mapM (FormatIssue.narrow? view directory targets)
        let issues := kept.filterMap id
        return { tool := "terraform fmt", passed := issues.isEmpty, issues, output := printed.all }) := by
  rw [formatReport, if_neg (by simpa using hexit)]
  cases FormatIssue.ofOutput printed.out <;> rfl

/-- **The outputs of the formatter of which a report can be made.** -/
theorem settles_formatReport :
    Settles (formatReport view directory targets printed) ↔
      FormatReportable directory targets printed := by
  rw [FormatReportable]
  by_cases hexit : printed.exit = 0
  · simp [formatReport, hexit, failsOnlyWith_ok, pure_eq_ok]
  · rw [formatReport_of_ne hexit, or_iff_right hexit]
    have hescapes : ∀ issue, Escapes (FormatIssue.narrow? view directory targets issue) :=
      fun _ => Files.escapes_keepWithin
    cases FormatIssue.ofOutput printed.out with
    | nil => exact iff_of_true (settles_error.mpr trivial) (by simp)
    | cons first rest =>
      rw [if_neg (by simp), settles_mapM_bind hescapes]
      simp only [FormatIssue.narrow?_eq, Files.ends_keepWithin]

theorem rejects_formatReport :
    FailsOnlyWith (fun fault => fault.IsReported → fault = silentFormat printed)
      (formatReport view directory targets printed) := by
  by_cases hexit : printed.exit = 0
  · rw [formatReport, if_pos (by simpa using hexit)]
    exact failsOnlyWith_ok _
  · rw [formatReport_of_ne hexit]
    split_ifs
    · exact failsOnlyWith_error.mpr fun _ => rfl
    · refine (rejects_of_escapes (FailsOnlyWith.mapM fun _ _ => ?_)).bind fun _ => failsOnlyWith_ok _
      exact Files.escapes_keepWithin

/-! ## Lint -/

namespace ConfigIssue

/-- The line that an issue names. -/
def lineIn (issue : Json) : Json := ((issue.objectIn "range").objectIn "start").countIn "line"

/-- The shape of an issue that names a line of some kind. -/
def EntryShape (line : Json → Prop) (issue : Json) : Prop :=
  issue.isObject = true ∧ (issue.objectIn "range").isObject = true ∧
    ((issue.objectIn "range").objectIn "start").isObject = true ∧ line (lineIn issue) ∧
    (issue.objectIn "rule").isObject = true

/-- The shape of the whole report of the linter, whose issues name lines of some kind. -/
def OutputShape (line : Json → Prop) (value : Json) : Prop :=
  (value.listIn "issues").isListed = true ∧
    (∀ issue ∈ (value.listIn "issues").items, EntryShape line issue) ∧
    (value.listIn "errors").isListed = true ∧
    ∀ error ∈ (value.listIn "errors").items, error.isObject = true

/-- The lines that the issues name are finite. -/
def OutputFinite (value : Json) : Prop := ∀ issue ∈ (value.listIn "issues").items, (lineIn issue).IsFinite

theorem outputShape_isNumeric {value : Json} :
    OutputShape Json.IsNumeric value ↔ OutputShape Json.IsNumber value ∧ OutputFinite value := by
  simp only [OutputShape, OutputFinite, EntryShape, Json.IsNumeric, forall_and]
  tauto

theorem severityOf_eq (issue : Json) :
    severityOf issue = (do
      let ofRule ← (← issue.getObject "rule").get "severity" .null
      let chosen ← (if ofRule.isVoid then issue.get "severity" .null else .ok ofRule)
      return Unicode.toLower (chosen.orElse (.str "warning")).shown) := by
  rw [severityOf]
  refine congrArg _ (funext fun rule => congrArg _ (funext fun ofRule => ?_))
  split_ifs <;> rfl

theorem ends_severityOf {issue : Json} :
    Ends (severityOf issue) ↔ issue.isObject = true ∧ (issue.objectIn "rule").isObject = true := by
  simp only [severityOf_eq, ends_bind, Json.getObject_eq_ok, Json.get_eq_ok, pure_eq_ok, ends_ok,
    and_true, and_assoc, exists_and_left, exists_eq_left, exists_eq_ok_iff]
  refine and_congr_right fun hissue => and_iff_left ?_
  split_ifs
  · exact Json.ends_get.mpr hissue
  · exact ends_ok _

theorem escapes_severityOf {issue : Json} : Escapes (severityOf issue) := by
  rw [severityOf_eq]
  refine Json.escapes_getObject.bind fun rule => Json.escapes_get.bind fun ofRule => ?_
  refine FailsOnlyWith.bind ?_ fun _ => failsOnlyWith_ok _
  split_ifs
  · exact Json.escapes_get
  · exact failsOnlyWith_ok _

theorem ends_ofEntry {issue : Json} : Ends (ofEntry issue) ↔ EntryShape Json.IsNumeric issue := by
  simp only [ofEntry, EntryShape, lineIn, Json.NumberIn, ends_bind, Json.getObject_eq_ok, Json.getField_eq_ok, pure_eq_ok,
    ends_ok, and_true, and_assoc, exists_and_left, exists_and_right, exists_eq_left,
    exists_eq_ok_iff, Json.ends_getNumber, ends_severityOf]
  tauto

theorem escapes_ofEntry {issue : Json} : Escapes (ofEntry issue) :=
  Json.escapes_getObject.bind fun _ => Json.escapes_getField.bind fun _ =>
    Json.escapes_getObject.bind fun _ => Json.escapes_getNumber.bind fun _ =>
      Json.escapes_getObject.bind fun _ => Json.escapes_getField.bind fun _ =>
        escapes_severityOf.bind fun _ => Json.escapes_getField.bind fun _ => failsOnlyWith_ok _

/-- The issues and the messages of the errors in a report. -/
def ofReport (value : Json) : Except Fault (List ConfigIssue × List Json) := do
  let issues ← (← value.getElements "issues").mapM ofEntry
  let errors ← (← value.getElements "errors").mapM (Json.getField "message")
  return (issues, errors)

theorem ends_ofReport {value : Json} (h : value.isObject = true) :
    Ends (ofReport value) ↔ OutputShape Json.IsNumeric value := by
  have hfield : ∀ error : Json, Ends (Json.getField "message" error) ↔ error.isObject = true :=
    fun _ => Json.ends_get
  simp only [ofReport, OutputShape, ends_bind, Json.getElements_eq_ok, pure_eq_ok, ends_ok, and_true,
    and_assoc, exists_and_left, exists_and_right, exists_eq_left, exists_eq_ok_iff, ends_mapM,
    ends_ofEntry, hfield, h, true_and]

theorem escapes_ofReport {value : Json} : Escapes (ofReport value) :=
  Json.escapes_getElements.bind fun _ => (FailsOnlyWith.mapM fun _ _ => escapes_ofEntry).bind
    fun _ => Json.escapes_getElements.bind fun _ =>
      (FailsOnlyWith.mapM fun _ _ => Json.escapes_getField).bind fun _ => failsOnlyWith_ok _

theorem settles_ofOutput {output : String} :
    Settles (ofOutput output) ↔ NoLongInteger output ∧ ∀ members, Prints output (.obj members) →
      OutputShape Json.IsNumeric (.obj members) := by
  rw [ofOutput, settles_readObject]
  · refine and_congr_right fun _ => forall₂_congr fun members _ => ?_
    exact escapes_ofReport.settles_iff.trans (ends_ofReport rfl)
  · intro value hvalue
    cases value with
    | obj members => cases hvalue
    | _ => exact settles_error.mpr trivial

end ConfigIssue

theorem ends_textsFrom {index : ℕ} {errors : List Json} :
    Ends (textsFrom index errors) ↔ ∀ error ∈ errors, ∃ text, error = .str text := by
  induction errors generalizing index with
  | nil => simp [textsFrom, ends_ok]
  | cons error errors ih =>
    cases error <;> simp [textsFrom, ends_map, ih, not_ends_error]

theorem escapes_textsFrom {index : ℕ} {errors : List Json} : Escapes (textsFrom index errors) := by
  induction errors generalizing index with
  | nil => exact failsOnlyWith_ok _
  | cons error errors ih =>
    cases error with
    | str text =>
      rw [textsFrom]
      exact failsOnlyWith_map.mpr ih
    | _ => exact failsOnlyWith_error.mpr id

theorem ends_joinedErrors {errors : List Json} :
    Ends (joinedErrors errors) ↔ ∀ error ∈ errors, ∃ text, error = .str text := by
  have htexts : Ends (textsFrom 0 errors) ↔ ∀ error ∈ errors, ∃ text, error = .str text :=
    ends_textsFrom
  rw [joinedErrors, ← htexts, ends_bind]
  exact exists_congr fun texts => and_iff_left (ends_ok _)

theorem escapes_joinedErrors {errors : List Json} : Escapes (joinedErrors errors) :=
  escapes_textsFrom.bind fun _ => failsOnlyWith_ok _

/-- A report can be made of what the linter printed: its issues and errors have their shapes, the files of
all issues have a place, and the messages of all errors are texts. -/
def ConfigReportable (directory : Path) (targets : List String) (printed : Printed) : Prop :=
  (NoLongInteger printed.out ∧ ∀ members, Prints printed.out (.obj members) →
    ConfigIssue.OutputShape Json.IsNumeric (.obj members)) ∧
  ∀ found errors, ConfigIssue.ofOutput printed.out = .ok (found, errors) →
    (∀ issue ∈ found, NamesFile directory targets issue.file) ∧
      ∀ error ∈ errors, ∃ text, error = .str text

/-- **The outputs of the linter of which a report can be made.** -/
theorem settles_configReport :
    Settles (configReport view directory targets printed) ↔
      ConfigReportable directory targets printed := by
  rw [configReport, ConfigReportable, settles_bind, settles_withOutput, ConfigIssue.settles_ofOutput]
  simp only [withOutput_eq_ok, Prod.forall]
  refine and_congr_right fun _ => forall₂_congr fun found errors => imp_congr_right fun _ => ?_
  have hescapes : Escapes (narrowTo view directory targets ConfigIssue.file found) := escapes_narrowTo
  rw [settles_bind, hescapes.settles_iff, ends_narrowTo]
  refine and_congr_right fun hfiles => ?_
  have hends : Ends (narrowTo view directory targets ConfigIssue.file found) := ends_narrowTo.mpr hfiles
  obtain ⟨issues, hissues⟩ := hends
  simp only [hissues, Except.ok.injEq, forall_eq', settles_bind, escapes_joinedErrors.settles_iff,
    ends_joinedErrors]
  exact and_iff_left fun _ _ => failsOnlyWith_ok _

/-! ## Security -/

namespace SecurityIssue

/-- The shape of a misconfiguration. -/
def EntryShape (entry : Json) : Prop :=
  entry.isObject = true ∧ ∃ word, (entry.memberOr "Severity" .null).orElse (.str "") = .str word

/-- The shape of a result. -/
def ResultShape (result : Json) : Prop :=
  result.isObject = true ∧ (result.listIn "Misconfigurations").isListed = true ∧
    ∀ entry ∈ (result.listIn "Misconfigurations").items, EntryShape entry

/-- The shape of the whole report of the scanner. -/
def OutputShape (value : Json) : Prop :=
  (value.listIn "Results").isListed = true ∧
    ∀ result ∈ (value.listIn "Results").items, ResultShape result

theorem ends_tier {value : Json} :
    Ends (SecurityTier.ofJson value) ↔ ∃ word, value.orElse (.str "") = .str word := by
  rw [SecurityTier.ofJson]
  cases value.orElse (.str "") <;> simp [ends_ok, not_ends_error]

theorem escapes_tier {value : Json} : Escapes (SecurityTier.ofJson value) := by
  rw [SecurityTier.ofJson]
  split
  · exact failsOnlyWith_ok _
  · exact failsOnlyWith_error.mpr fun h => h

theorem ends_ofEntry {result entry : Json} (h : result.isObject = true) :
    Ends (ofEntry result entry) ↔ EntryShape entry := by
  simp only [ofEntry, EntryShape, ends_bind, Json.getField_eq_ok, Json.get_eq_ok, pure_eq_ok,
    ends_ok, and_true, and_assoc, exists_and_left, exists_and_right, exists_eq_left,
    exists_eq_ok_iff, ends_tier, h]
  tauto

theorem escapes_ofEntry {result entry : Json} : Escapes (ofEntry result entry) :=
  Json.escapes_getField.bind fun _ => Json.escapes_getField.bind fun _ =>
    Json.escapes_get.bind fun _ => escapes_tier.bind fun _ =>
      Json.escapes_getField.bind fun _ => Json.escapes_getField.bind fun _ =>
        Json.escapes_getField.bind fun _ => failsOnlyWith_ok _

theorem ends_ofResult {result : Json} : Ends (ofResult result) ↔ ResultShape result := by
  simp only [ofResult, ResultShape, ends_bind, Json.getElements_eq_ok, and_assoc, exists_and_left,
    exists_eq_left, ends_mapM]
  refine and_congr_right fun hresult => and_congr_right fun _ => ?_
  simp only [ends_ofEntry hresult]

theorem escapes_ofResult {result : Json} : Escapes (ofResult result) :=
  Json.escapes_getElements.bind fun _ => FailsOnlyWith.mapM fun _ _ => escapes_ofEntry

/-- The misconfigurations in a report. -/
def ofReport (value : Json) : Except Fault (List SecurityIssue) := do
  let results ← value.getElements "Results"
  let issues ← results.mapM SecurityIssue.ofResult
  return issues.flatten.mergeSort SecurityIssue.atLeast

theorem ends_ofReport {value : Json} (h : value.isObject = true) :
    Ends (ofReport value) ↔ OutputShape value := by
  simp only [ofReport, OutputShape, ends_bind, Json.getElements_eq_ok, pure_eq_ok, ends_ok, and_true,
    and_assoc, exists_and_left, exists_eq_left, exists_eq_ok_iff, ends_mapM, ends_ofResult, h, true_and]

theorem escapes_ofReport {value : Json} : Escapes (ofReport value) :=
  Json.escapes_getElements.bind fun _ =>
    (FailsOnlyWith.mapM fun _ _ => escapes_ofResult).bind fun _ => failsOnlyWith_ok _

theorem settles_ofOutput {output : String} :
    Settles (ofOutput output) ↔ NoLongInteger output ∧ ∀ members, Prints output (.obj members) →
      OutputShape (.obj members) := by
  rw [ofOutput, settles_readObject]
  · refine and_congr_right fun _ => forall₂_congr fun members _ => ?_
    exact escapes_ofReport.settles_iff.trans (ends_ofReport rfl)
  · intro value hvalue
    cases value with
    | obj members => cases hvalue
    | _ => exact settles_error.mpr trivial

end SecurityIssue

/-- A report can be made of what the scanner printed: its results have their shapes, and the files of all
issues have a place. -/
def SecurityReportable (directory : Path) (targets : List String) (printed : Printed) : Prop :=
  (NoLongInteger printed.out ∧ ∀ members, Prints printed.out (.obj members) →
    SecurityIssue.OutputShape (.obj members)) ∧
  ∀ found, SecurityIssue.ofOutput printed.out = .ok found →
    ∀ issue ∈ found, NamesFile directory targets issue.file

/-- **The outputs of the scanner of which a report can be made.** -/
theorem settles_securityReport :
    Settles (securityReport view directory targets printed) ↔
      SecurityReportable directory targets printed := by
  rw [securityReport, SecurityReportable, settles_bind, settles_withOutput,
    SecurityIssue.settles_ofOutput]
  simp only [withOutput_eq_ok]
  exact and_congr_right fun _ => forall₂_congr fun found _ => settles_narrowTo_bind

end Lintel.Tool
