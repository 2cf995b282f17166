import Lintel.Proofs.Number.Integer
import Lintel.Proofs.Tool.Guard
import Lintel.Tool.Diagnostic
import Mathlib.Data.List.TakeWhile

/-!
# Output of the type checker

Each line is a diagnostic or is passed over; only a number of too many digits is a fault.

* `RawDiagnostic.decimal_of_ofLine?`: the line and the column of a diagnostic are rows of digits;
* `ends_ofOutput`: when the diagnostics can be read;
* **`settles_typeCheckReport`**: the exact outputs of which a report can be made.
-/

namespace Lintel.Tool

open Files (Path View AllPlaced Placed)

/-- A row of digits, at least one. -/
def IsDigits (cs : List Char) : Prop := cs ≠ [] ∧ ∀ c ∈ cs, Unicode.isDecimal c = true

theorem isDigits_of_digitsAtFront? {cs digits rest : List Char}
    (h : digitsAtFront? cs = some (digits, rest)) : IsDigits digits := by
  rw [digitsAtFront?] at h
  cases htake : cs.takeWhile Unicode.isDecimal with
  | nil => simp [htake] at h
  | cons d ds =>
    simp only [htake, Option.some.injEq, Prod.mk.injEq] at h
    obtain ⟨rfl, -⟩ := h
    refine ⟨List.cons_ne_nil _ _, fun c hc => ?_⟩
    rw [← htake] at hc
    exact List.mem_takeWhile_imp hc

namespace RawDiagnostic

/-- The line and the column are rows of digits. -/
def Decimal (raw : RawDiagnostic) : Prop := IsDigits raw.line ∧ IsDigits raw.column

/-- The line and the column are not too long to be read. -/
def Short (raw : RawDiagnostic) : Prop :=
  raw.line.length ≤ Number.maxIntegerDigits ∧ raw.column.length ≤ Number.maxIntegerDigits

theorem decimal_of_positionAtFront? {cs : List Char} {raw : RawDiagnostic}
    (h : positionAtFront? cs = some raw) : raw.Decimal := by
  simp only [positionAtFront?, Option.bind_eq_bind, Option.bind_eq_some_iff, Prod.exists] at h
  obtain ⟨_, _, line, _, hline, _, _, column, _, hcolumn, _, _, _, _, _, _, _, _, _, _, _, _, _, _, _,
    _, _, h⟩ := h
  split_ifs at h
  cases h
  exact ⟨isDigits_of_digitsAtFront? hline, isDigits_of_digitsAtFront? hcolumn⟩

theorem decimal_of_search? {before cs : List Char} {raw : RawDiagnostic}
    (h : search? before cs = some raw) : raw.Decimal := by
  induction cs generalizing before raw with
  | nil => cases h
  | cons c cs ih =>
    rw [search?] at h
    cases hlater : search? (c :: before) cs with
    | some found =>
      simp only [hlater, Option.some.injEq] at h
      exact h ▸ ih hlater
    | none =>
      simp only [hlater] at h
      split_ifs at h
      obtain ⟨found, hfound, rfl⟩ := Option.map_eq_some_iff.mp h
      have hdecimal := decimal_of_positionAtFront? hfound
      exact hdecimal

theorem decimal_of_ofLine? {line : List Char} {raw : RawDiagnostic} (h : ofLine? line = some raw) :
    raw.Decimal :=
  decimal_of_search? h

theorem ends_numberOf {digits : List Char} (h : IsDigits digits) :
    Ends (numberOf digits) ↔ digits.length ≤ Number.maxIntegerDigits := by
  rw [numberOf, Json.ends_wholeNumber, Json.isNumeric_str, String.toList_ofList,
    Number.ends_readInteger_iff h.1 h.2]

theorem ends_read {raw : RawDiagnostic} (h : raw.Decimal) : Ends raw.read ↔ raw.Short := by
  rw [read, Short, ← ends_numberOf h.1, ← ends_numberOf h.2]
  simp only [ends_bind, pure_eq_ok, ends_ok, and_true]
  exact ⟨fun ⟨line, hline, hcolumn⟩ => ⟨⟨line, hline⟩, hcolumn⟩,
    fun ⟨⟨line, hline⟩, hcolumn⟩ => ⟨line, hline, hcolumn⟩⟩

theorem escapes_read (raw : RawDiagnostic) : Escapes raw.read :=
  Json.escapes_wholeNumber.bind fun _ => Json.escapes_wholeNumber.bind fun _ => failsOnlyWith_ok _

end RawDiagnostic

/-- The diagnostics of an output whose numbers are still text. -/
def rawDiagnostics (output : String) : List RawDiagnostic :=
  (Text.splitLines output.toList).filterMap fun line => RawDiagnostic.ofLine? (Text.trimChars line)

namespace Diagnostic

theorem ofOutput_eq (output : String) :
    ofOutput output = (rawDiagnostics output).mapM RawDiagnostic.read := rfl

theorem ends_ofOutput {output : String} :
    Ends (ofOutput output) ↔ ∀ raw ∈ rawDiagnostics output, raw.Short := by
  rw [ofOutput_eq, ends_mapM]
  refine forall₂_congr fun raw hraw => RawDiagnostic.ends_read ?_
  obtain ⟨line, _, hline⟩ := List.mem_filterMap.mp hraw
  exact RawDiagnostic.decimal_of_ofLine? hline

theorem escapes_ofOutput {output : String} : Escapes (ofOutput output) :=
  FailsOnlyWith.mapM fun raw _ => raw.escapes_read

variable {view : View} {directory : Path} {targets : List String}

theorem narrow?_eq (diagnostic : Diagnostic) :
    narrow? view directory targets diagnostic =
      Files.keepWithin view directory targets diagnostic.file fun place =>
        { diagnostic with file := Files.placeText place } := rfl

end Diagnostic

/-- A report can be made of what the type checker printed: it is content, or it names no line or column
of too many digits and no file without a place. -/
def TypeCheckReportable (directory : Path) (targets : List String) (printed : Printed) : Prop :=
  printed.exit = 0 ∨ (∀ raw ∈ rawDiagnostics printed.all, raw.Short) ∧
    ∀ found, Diagnostic.ofOutput printed.all = .ok found →
      ∀ diagnostic ∈ found, AllPlaced targets ∧ Placed directory diagnostic.file

theorem typeCheckReport_of_ne {view : View} {directory : Path} {targets : List String}
    {printed : Printed} (hexit : printed.exit ≠ 0) :
    typeCheckReport view directory targets printed = do
      let found ← Diagnostic.ofOutput printed.all
      if found.isEmpty then .error (silentTypeCheck printed)
      else do
        let issues := (← found.mapM (Diagnostic.narrow? view directory targets)).filterMap id
        return { tool := "tsc", passed := issues.isEmpty, issues, output := printed.all } := by
  rw [typeCheckReport, if_neg (by simpa using hexit)]
  refine congrArg _ (funext fun found => ?_)
  cases found <;> rfl

/-- **The outputs of the type checker of which a report can be made.** -/
theorem settles_typeCheckReport {view : View} {directory : Path} {targets : List String}
    {printed : Printed} :
    Settles (typeCheckReport view directory targets printed) ↔
      TypeCheckReportable directory targets printed := by
  rw [TypeCheckReportable]
  by_cases hexit : printed.exit = 0
  · simp [typeCheckReport, hexit, failsOnlyWith_ok, pure_eq_ok]
  · rw [typeCheckReport_of_ne hexit, settles_bind, Diagnostic.escapes_ofOutput.settles_iff,
      Diagnostic.ends_ofOutput, or_iff_right hexit]
    refine and_congr_right fun _ => forall₂_congr fun found _ => ?_
    have hescapes : ∀ diagnostic, Escapes (Diagnostic.narrow? view directory targets diagnostic) :=
      fun _ => Files.escapes_keepWithin
    cases found with
    | nil => exact iff_of_true (settles_error.mpr trivial) (by simp)
    | cons first rest =>
      rw [if_neg (by simp), settles_mapM_bind hescapes]
      simp only [Diagnostic.narrow?_eq, Files.ends_keepWithin]

theorem rejects_typeCheckReport {view : View} {directory : Path} {targets : List String}
    {printed : Printed} :
    FailsOnlyWith (fun fault => fault.IsReported → fault = silentTypeCheck printed)
      (typeCheckReport view directory targets printed) := by
  by_cases hexit : printed.exit = 0
  · rw [typeCheckReport, if_pos (by simpa using hexit)]
    exact failsOnlyWith_ok _
  · rw [typeCheckReport_of_ne hexit]
    refine (rejects_of_escapes Diagnostic.escapes_ofOutput).bind fun found => ?_
    split_ifs
    · exact failsOnlyWith_error.mpr fun _ => rfl
    · refine (rejects_of_escapes (FailsOnlyWith.mapM fun _ _ => ?_)).bind fun _ => failsOnlyWith_ok _
      exact Files.escapes_keepWithin

end Lintel.Tool
