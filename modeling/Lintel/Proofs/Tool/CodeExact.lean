import Lintel.Proofs.Tool.DiagnosticLine
import Lintel.Proofs.Tool.Judged
import Mathlib

/-!
# Exact reports about code

Where the tools for code print what is expected of them, the report of an analysis is exact.

* `TypeCheckSays`, `LintSays`: what the report of a tool says of what it printed;
* `CodeReport.Exact`: the report says that of each tool that is wanted, and is a success if all passed;
* **`analyzeCode_exact`**: an analysis of tools that print what is expected (`CodeExpected`) gives an
  exact report.
-/

namespace Lintel.Tool

open Files (NameTooLong Path View AllPlaced Placed Inside ValueInside IsRead IsNormal placeOf placeText)

variable {view : View} {directory : Path} {targets : List String} {printed : Printed}

/-! ## Type check -/

/-- What is expected of the type checker: numbers that are not too long, and names that have a place. -/
def TypeCheckExpected (directory : Path) (printed : Printed) : Prop :=
  ∀ raw ∈ rawDiagnostics printed.all, raw.Short ∧ Placed directory (String.ofList raw.file)

/-- The diagnostic with a place for its file. -/
def Diagnostic.withPlace (diagnostic : Diagnostic) (place : Files.Place) : Diagnostic :=
  { diagnostic with file := placeText place }

/-- What the report about the type checker says: it passes if the checker is content, or if it found
something, and nothing inside the targets; the issues are what a failing checker found inside. -/
structure TypeCheckSays (view : View) (directory : Path) (targets : List String) (printed : Printed)
    (report : ToolReport Diagnostic) : Prop where
  content : printed.exit = 0 → report.passed = true ∧ report.issues = []
  failing : printed.exit ≠ 0 → ∃ found,
    Diagnostic.Found (Text.splitLines printed.all.toList) found ∧
      Narrowed view directory targets Diagnostic.file Diagnostic.withPlace found report
  normal : ∀ issue ∈ report.issues, ∃ place, IsNormal place ∧ issue.file = placeText place

theorem TypeCheckExpected.placed (h : TypeCheckExpected directory printed) {found : List Diagnostic}
    (hfound : Diagnostic.ofOutput printed.all = .ok found) :
    ∀ diagnostic ∈ found, Placed directory diagnostic.file := by
  intro diagnostic hmem
  rw [Diagnostic.ofOutput_eq] at hfound
  obtain ⟨raw, hraw, hread⟩ := exists_of_mapM_eq_ok hfound hmem
  simp only [RawDiagnostic.read, bind_eq_ok, pure_eq_ok, Except.ok.injEq] at hread
  obtain ⟨_, _, _, _, rfl⟩ := hread
  exact (h raw hraw).2

theorem TypeCheckExpected.reportable (h : TypeCheckExpected directory printed)
    (hall : AllPlaced targets) : TypeCheckReportable directory targets printed :=
  .inr ⟨fun raw hraw => (h raw hraw).1, fun _ hfound diagnostic hmem =>
    ⟨hall, h.placed hfound diagnostic hmem⟩⟩

namespace LintIssue

/-- The issue is what a message says about a file. -/
structure Tells (issue : LintIssue) (file message : Json) : Prop where
  file : issue.file = file
  line : message.getNumber "line" = .ok issue.line
  column : message.getNumber "column" = .ok issue.column
  rule : issue.rule = (message.memberOr "ruleId" .null).orElse (.str "")
  severity : issue.severity = if isTwo (message.memberOr "severity" .null) then "error" else "warning"
  message : issue.message = message.memberOr "message" (.str "")

/-- The messages of an entry, each with the file of the entry. -/
def mentionsOf (entry : Json) : List (Json × Json) :=
  (messagesOf entry).items.map fun message => (entry.memberOr "filePath" (.str ""), message)

/-- The messages in a list of entries, in its order, each with its file. -/
def mentions (entries : List Json) : List (Json × Json) := entries.flatMap mentionsOf

theorem tells_of_ofMessage {file message : Json} {issue : LintIssue}
    (h : ofMessage file message = .ok issue) : issue.Tells file message := by
  simp only [ofMessage, bind_eq_ok, Json.get_eq_ok, Json.getField_eq_ok, pure_eq_ok,
    Except.ok.injEq] at h
  obtain ⟨line, hline, column, hcolumn, rule, ⟨-, rfl⟩, severity, ⟨-, rfl⟩, text, ⟨-, rfl⟩, rfl⟩ := h
  exact ⟨rfl, hline, hcolumn, rfl, rfl, rfl⟩

theorem tells_of_ofEntry {entry : Json} {found : List LintIssue} (h : ofEntry entry = .ok found) :
    List.Forall₂ (fun issue mention => issue.Tells mention.1 mention.2) found (mentionsOf entry) := by
  cases hobject : entry.isObject with
  | false => cases (ofEntry_of_not_isObject hobject).symm.trans h
  | true =>
    rw [ofEntry_of_isObject hobject] at h
    simp only [bind_eq_ok, Json.getField_eq_ok, Json.get_eq_ok, Json.elements_eq_ok] at h
    obtain ⟨file, ⟨-, rfl⟩, value, ⟨-, rfl⟩, messages, ⟨-, rfl⟩, hfound⟩ := h
    rw [mentionsOf, List.forall₂_map_right_iff]
    exact (mapM_eq_ok.mp hfound).flip.imp fun issue message => tells_of_ofMessage

theorem ofOutput_of_prints {output : String} {entries : List Json} (h : Prints output (.arr entries)) :
    ofOutput output = (entries.mapM ofEntry).map List.flatten := by
  have hread : readOutput "ESLint" "eslint" output = .ok (.arr entries) := readOutput_eq_ok.mpr h
  rw [ofOutput, hread, map_eq_bind]
  rfl

end LintIssue

/-- What is expected of an entry of the linter: a file that has a place, and a list of messages of the right
types. -/
structure LintIssue.EntryExpected (directory : Path) (entry : Json) : Prop where
  object : entry.isObject = true
  placed : ∃ name, entry.memberOr "filePath" (.str "") = .str name ∧ Placed directory name
  listed : (messagesOf entry).isListed = true
  typed : ∀ message ∈ (messagesOf entry).items, MessageTyped message

/-- What is expected of the linter: if it prints a list, one of such entries. -/
def LintExpected (directory : Path) (printed : Printed) : Prop :=
  NoLongInteger printed.out ∧ ∀ entries, Prints printed.out (.arr entries) →
    ∀ entry ∈ entries, LintIssue.EntryExpected directory entry

/-- The numbers in all messages are finite. -/
def LintFinite (printed : Printed) : Prop :=
  ∀ entries, Prints printed.out (.arr entries) → ∀ entry ∈ entries,
    ∀ message ∈ (LintIssue.messagesOf entry).items, LintIssue.MessageFinite message

/-- What the report about the linter says: the issues are the messages of the files inside the targets,
and it passes if none of them is an error. Output that is no list is a failure. -/
structure LintSays (view : View) (directory : Path) (targets : List String) (printed : Printed)
    (report : ToolReport LintIssue) : Prop where
  read : ∀ entries, Prints printed.out (.arr entries) →
    List.Forall₂ (fun issue mention => issue.Tells mention.1 mention.2) report.issues
      ((LintIssue.mentions entries).filter fun mention =>
        ValueInside view directory targets mention.1) ∧
    (report.passed = true ↔ ∀ issue ∈ report.issues, issue.severity ≠ "error")
  unread : (∀ entries, ¬ Prints printed.out (.arr entries)) →
    report.passed = false ∧ report.issues = [] ∧ report.error.isSome = true

theorem LintIssue.EntryExpected.entryShape_iff {entry : Json} (h : EntryExpected directory entry) :
    EntryShape entry ↔ ∀ message ∈ (messagesOf entry).items, MessageFinite message := by
  rw [EntryShape, and_iff_right h.listed]
  exact forall₂_congr fun message hmessage => messageShape_iff.trans (and_iff_right (h.typed message hmessage))

theorem LintIssue.tells_of_ofOutput {found : List LintIssue} {entries : List Json}
    (hfound : LintIssue.ofOutput printed.out = .ok found) (hprints : Prints printed.out (.arr entries)) :
    List.Forall₂ (fun issue mention => issue.Tells mention.1 mention.2) found
      (LintIssue.mentions entries) := by
  rw [LintIssue.ofOutput_of_prints hprints] at hfound
  obtain ⟨founds, hfounds, rfl⟩ := map_eq_ok.mp hfound
  exact forall₂_flatten hfounds fun _ _ => LintIssue.tells_of_ofEntry

theorem LintExpected.ends (h : LintExpected directory printed) (hfinite : LintFinite printed)
    {entries : List Json} (hprints : Prints printed.out (.arr entries)) :
    Ends (LintIssue.ofOutput printed.out) := by
  rw [LintIssue.ofOutput_of_prints hprints, ends_map, ends_mapM]
  intro entry hentry
  have hexpected := h.2 entries hprints entry hentry
  exact (LintIssue.ends_ofEntry hexpected.object).mpr
    (hexpected.entryShape_iff.mpr (hfinite entries hprints entry hentry))

theorem LintExpected.namesFile (h : LintExpected directory printed) (hall : AllPlaced targets)
    {entries : List Json} (hprints : Prints printed.out (.arr entries)) {found : List LintIssue}
    (htells : List.Forall₂ (fun issue mention => issue.Tells mention.1 mention.2) found
      (LintIssue.mentions entries)) :
    ∀ issue ∈ found, Files.NamesFile directory targets issue.file := by
  refine forall_mem_of_forall₂ htells (Q := fun mention =>
    Files.NamesFile directory targets mention.1) (fun mention hmention => ?_)
    fun issue mention htells hmention => htells.file ▸ hmention
  obtain ⟨entry, hentry, hmention⟩ := List.mem_flatMap.mp hmention
  obtain ⟨message, -, rfl⟩ := List.mem_map.mp hmention
  exact .inr ⟨hall, (h.2 entries hprints entry hentry).placed⟩

theorem LintIssue.prints_of_ofOutput {output : String} {found : List LintIssue}
    (h : ofOutput output = .ok found) : ∃ entries, Prints output (.arr entries) := by
  obtain ⟨value, hvalue, hrest⟩ := bind_eq_ok.mp h
  cases value with
  | arr entries => exact ⟨entries, readOutput_eq_ok.mp hvalue⟩
  | _ => cases hrest

theorem LintExpected.reportable_iff (h : LintExpected directory printed) (hall : AllPlaced targets) :
    LintReportable directory targets printed ↔ LintFinite printed := by
  have hfiles : ∀ found, LintIssue.ofOutput printed.out = .ok found →
      ∀ issue ∈ found, Files.NamesFile directory targets issue.file := by
    intro found hfound
    obtain ⟨entries, hprints⟩ := LintIssue.prints_of_ofOutput hfound
    exact h.namesFile hall hprints (LintIssue.tells_of_ofOutput hfound hprints)
  rw [LintReportable, and_iff_left hfiles, and_iff_right h.1, LintFinite]
  refine forall₂_congr fun entries hprints => ?_
  have hobjects : entries.takeWhile Json.isObject = entries :=
    List.takeWhile_eq_self_iff.mpr fun entry hentry => (h.2 entries hprints entry hentry).object
  rw [hobjects]
  exact forall₂_congr fun entry hentry => (h.2 entries hprints entry hentry).entryShape_iff

/-- What is expected of the tools for code. -/
structure CodeExpected (run : Command → Answer) (directory : Path) (targets : List String)
    (analysis : CodeAnalysis) : Prop where
  targets : AllPlaced targets
  typeCheck : analysis.checksTypes = true → ∀ printed, run ⟨typeCheckWords, directory⟩ = .ok printed →
    TypeCheckExpected directory printed
  lint : analysis.lints = true → ∀ printed, run ⟨lintWords, directory⟩ = .ok printed →
    LintExpected directory printed

/-- The report about code is exact: in a directory it tells of each tool that is wanted, and it is a
success if all of them passed; without the directory there is only the error. -/
structure CodeReport.Exact (report : CodeReport) (run : Command → Answer) (view : View)
    (directory : Path) (targets : List String) (analysis : CodeAnalysis) : Prop where
  missing : view.askDir directory = .ok false →
    report.typeCheck = none ∧ report.lint = none ∧ report.error.isSome = true
  typeCheck : view.askDir directory = .ok true → ReportIf analysis.checksTypes
    (Accounts (run ⟨typeCheckWords, directory⟩) (TypeCheckSays view directory targets))
    report.typeCheck
  lint : view.askDir directory = .ok true → ReportIf analysis.lints
    (Accounts (run ⟨lintWords, directory⟩) (LintSays view directory targets)) report.lint
  success : report.success = true ↔ view.askDir directory = .ok true ∧
    (analysis.checksTypes = true → ∃ own, report.typeCheck = some own ∧ own.passed = true) ∧
    (analysis.lints = true → ∃ own, report.lint = some own ∧ own.passed = true)

/-- It can be told whether the workspace is there, and if so, the numbers that the linter prints are
finite. -/
structure CodeReturns (run : Command → Answer) (view : View) (directory : Path)
    (analysis : CodeAnalysis) : Prop where
  told : ¬ NameTooLong view directory
  lint : view.askDir directory = .ok true → analysis.lints = true →
    ∀ printed, run ⟨lintWords, directory⟩ = .ok printed → LintFinite printed

section Code

variable {run : Command → Answer} {analysis : CodeAnalysis}

theorem CodeExpected.reportable_iff (h : CodeExpected run directory targets analysis) :
    CodeReportable run view directory targets analysis ↔ CodeReturns run view directory analysis := by
  have htypes : analysis.checksTypes = true →
      ∀ printed, run ⟨typeCheckWords, directory⟩ = .ok printed →
        TypeCheckReportable directory targets printed :=
    fun hwanted printed hprinted => (h.typeCheck hwanted printed hprinted).reportable h.targets
  have hlint : analysis.lints = true → ∀ printed, run ⟨lintWords, directory⟩ = .ok printed →
      (LintReportable directory targets printed ↔ LintFinite printed) :=
    fun hwanted printed hprinted => (h.lint hwanted printed hprinted).reportable_iff h.targets
  constructor
  · exact fun hreportable => ⟨hreportable.told, fun hasked hwanted printed hprinted =>
      (hlint hwanted printed hprinted).mp (hreportable.lint hasked hwanted printed hprinted)⟩
  · exact fun hreturns => ⟨hreturns.told, fun _ => htypes, fun hasked hwanted printed hprinted =>
      (hlint hwanted printed hprinted).mpr (hreturns.lint hasked hwanted printed hprinted)⟩

end Code

/-- The type checker and the linter complain about a file, the type checker about another one too. -/
def complaining (command : Command) : Answer :=
  if command.words = typeCheckWords then
    .ok { exit := 2, out := "src/a.ts(1,1): error TS1005: ';' expected.\nb.ts(2,7): error TS2304: x\n" }
  else .ok { exit := 1, out := "[\x7b\"filePath\": \"src/a.ts\", \"messages\": [\x7b\"message\": \"unused\"\x7d]\x7d]" }

/-- The entry that the complaining linter prints. -/
def complaint : Json :=
  .obj [("filePath", .str "src/a.ts"), ("messages", .arr [.obj [("message", .str "unused")]])]

end Lintel.Tool
