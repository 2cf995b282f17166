import Lintel.Proofs.Json.Plain
import Lintel.Proofs.Tool.Diagnostic

/-!
# Lines of diagnostics

A line spells a diagnostic if it is the file, the position in brackets, the word `error`, a code and a
message (`RawDiagnostic.Spells`). A line may spell several; the one with the longest file counts
(`RawDiagnostic.Reads`).

* **`RawDiagnostic.ofLine?_eq_some_iff`**: the reader of lines finds the diagnostic that counts, and only
  that one;
* **`Diagnostic.found_iff`**: the diagnostics of an output are those of its lines, one after the other.
-/

namespace Lintel

/-! ## Rows of characters -/

theorem span_iff {α : Type} {p : α → Bool} {as front rest : List α} :
    as.takeWhile p = front ∧ as.dropWhile p = rest ↔
      as = front ++ rest ∧ (∀ a ∈ front, p a = true) ∧ ∀ a ∈ rest.head?, p a = false := by
  constructor
  · rintro ⟨rfl, rfl⟩
    refine ⟨List.takeWhile_append_dropWhile.symm, fun a => List.mem_takeWhile_imp, fun a ha => ?_⟩
    have hnot := List.head?_dropWhile_not p as
    rwa [Option.mem_def.mp ha] at hnot
  · rintro ⟨rfl, hfront, hrest⟩
    rw [List.takeWhile_append_of_pos hfront, List.dropWhile_append_of_pos hfront]
    cases rest with
    | nil => simp
    | cons a rest => simp [hrest a rfl]

namespace Tool

/-- A row of blanks, at least one. -/
def IsBlanks (cs : List Char) : Prop := cs ≠ [] ∧ ∀ c ∈ cs, Text.isBlank c = true

theorem digitsAtFront?_eq_some_iff {cs digits rest : List Char} :
    digitsAtFront? cs = some (digits, rest) ↔
      cs = digits ++ rest ∧ IsDigits digits ∧ ∀ c ∈ rest.head?, Unicode.isDecimal c = false := by
  have hsome : digitsAtFront? cs = some (digits, rest) ↔
      digits ≠ [] ∧ cs.takeWhile Unicode.isDecimal = digits ∧
        cs.dropWhile Unicode.isDecimal = rest := by
    rw [digitsAtFront?]
    cases htake : cs.takeWhile Unicode.isDecimal <;> grind
  rw [hsome, span_iff, IsDigits]
  tauto

theorem afterBlanks?_eq_some_iff {cs rest : List Char} :
    afterBlanks? cs = some rest ↔
      ∃ gap, cs = gap ++ rest ∧ IsBlanks gap ∧ ∀ c ∈ rest.head?, Text.isBlank c = false := by
  have hsome : afterBlanks? cs = some rest ↔
      cs.takeWhile Text.isBlank ≠ [] ∧ cs.dropWhile Text.isBlank = rest := by
    cases cs with
    | nil => simp [afterBlanks?]
    | cons c cs =>
      rw [afterBlanks?]
      cases hblank : Text.isBlank c <;> simp [hblank]
  rw [hsome]
  constructor
  · rintro ⟨hne, hrest⟩
    obtain ⟨hsplit, hgap, hhead⟩ := span_iff.mp ⟨rfl, hrest⟩
    exact ⟨_, hsplit, ⟨hne, hgap⟩, hhead⟩
  · rintro ⟨gap, hsplit, ⟨hne, hgap⟩, hhead⟩
    obtain ⟨rfl, hrest⟩ := span_iff.mpr ⟨hsplit, hgap, hhead⟩
    exact ⟨hne, hrest⟩

namespace RawDiagnostic

/-! ## What a line spells -/

/-- What stands after the file in the line of a diagnostic, with three rows of blanks. -/
def tail (raw : RawDiagnostic) (beforeError beforeCode beforeMessage : List Char) : List Char :=
  ['('] ++ raw.line ++ [','] ++ raw.column ++ [')', ':'] ++ beforeError ++ "error".toList ++
    beforeCode ++ raw.code ++ [':'] ++ beforeMessage ++ raw.message

/-- The characters spell what stands after the file in the line of the diagnostic. -/
structure Follows (raw : RawDiagnostic) (rest : List Char) : Prop where
  decimal : raw.Decimal
  code : ∃ number, IsDigits number ∧ raw.code = ['T', 'S'] ++ number
  message : ∃ c cs, raw.message = c :: cs ∧ Text.isBlank c = false
  spelt : ∃ beforeError beforeCode beforeMessage, IsBlanks beforeError ∧ IsBlanks beforeCode ∧
    IsBlanks beforeMessage ∧ rest = raw.tail beforeError beforeCode beforeMessage

/-- The line spells the diagnostic. -/
def Spells (raw : RawDiagnostic) (line : List Char) : Prop :=
  raw.file ≠ [] ∧ ∃ rest, line = raw.file ++ rest ∧ raw.Follows rest

/-- The line spells the diagnostic, and no other one with a longer file. -/
def Reads (raw : RawDiagnostic) (line : List Char) : Prop :=
  raw.Spells line ∧ ∀ other : RawDiagnostic, other.Spells line → other.file.length ≤ raw.file.length

/-! ## What the reader finds -/

theorem positionAtFront?_eq_some_iff {rest : List Char} {raw : RawDiagnostic} :
    positionAtFront? rest = some raw ↔ raw.file = [] ∧ raw.Follows rest := by
  simp only [positionAtFront?, Option.bind_eq_bind, Option.bind_eq_some_iff, Prod.exists,
    Json.after?_eq_some_iff, digitsAtFront?_eq_some_iff, afterBlanks?_eq_some_iff]
  constructor
  · rintro ⟨_, rfl, line, _, ⟨rfl, hline, -⟩, _, rfl, column, _, ⟨rfl, hcolumn, -⟩, _, rfl, _,
      ⟨gap₁, rfl, hgap₁, -⟩, _, rfl, _, ⟨gap₂, rfl, hgap₂, -⟩, _, rfl, number, _,
      ⟨rfl, hnumber, -⟩, _, rfl, message, ⟨gap₃, rfl, hgap₃, hhead⟩, h⟩
    cases message with
    | nil => simp at h
    | cons c cs =>
      cases h
      refine ⟨rfl, ⟨hline, hcolumn⟩, ⟨number, hnumber, rfl⟩, ⟨c, cs, rfl, hhead c rfl⟩, ?_⟩
      exact ⟨gap₁, gap₂, gap₃, hgap₁, hgap₂, hgap₃, by simp [tail]⟩
  · obtain ⟨file, line, column, code, message⟩ := raw
    rintro ⟨rfl, ⟨hline, hcolumn⟩, ⟨number, hnumber, rfl⟩, ⟨c, cs, rfl, hc⟩, gap₁, gap₂, gap₃,
      hgap₁, hgap₂, hgap₃, rfl⟩
    simp only [tail, List.append_assoc]
    exact ⟨_, rfl, line, _, ⟨rfl, hline, by simp; decide⟩, _, rfl, column, _,
      ⟨rfl, hcolumn, by simp; decide⟩, _, rfl, _, ⟨gap₁, rfl, hgap₁, by simp; decide⟩, _, rfl, _,
      ⟨gap₂, rfl, hgap₂, by simp; decide⟩, _, rfl, number, _, ⟨rfl, hnumber, by simp; decide⟩, _, rfl,
      c :: cs, ⟨gap₃, rfl, hgap₃, by simpa using hc⟩, rfl⟩

theorem Follows.ne_nil {raw : RawDiagnostic} {rest : List Char} (h : raw.Follows rest) : rest ≠ [] := by
  obtain ⟨gap₁, gap₂, gap₃, -, -, -, rfl⟩ := h.spelt
  simp [tail]

theorem Follows.withFile {raw : RawDiagnostic} {rest : List Char} (h : raw.Follows rest)
    (file : List Char) : Follows { raw with file } rest :=
  ⟨h.decimal, h.code, h.message, h.spelt⟩

theorem Follows.positionAtFront? {raw : RawDiagnostic} {rest : List Char} (h : raw.Follows rest) :
    positionAtFront? rest = some { raw with file := [] } :=
  positionAtFront?_eq_some_iff.mpr ⟨rfl, h.withFile []⟩

theorem Follows.unique {raw other : RawDiagnostic} {rest : List Char} (h : raw.Follows rest)
    (hother : other.Follows rest) : { raw with file := other.file } = other := by
  have heq : { raw with file := [] } = { other with file := [] } :=
    Option.some.inj (h.positionAtFront?.symm.trans hother.positionAtFront?)
  obtain ⟨file, line, column, code, message⟩ := raw
  obtain ⟨file', line', column', code', message'⟩ := other
  simp_all

theorem Spells.unique {raw other : RawDiagnostic} {line : List Char} (h : raw.Spells line)
    (hother : other.Spells line) (hlength : raw.file.length = other.file.length) : raw = other := by
  obtain ⟨-, rest, hline, hfollows⟩ := h
  obtain ⟨-, rest', hline', hfollows'⟩ := hother
  obtain ⟨hfile, rfl⟩ := List.append_inj (hline.symm.trans hline') hlength
  rw [← hfollows.unique hfollows', ← hfile]

theorem Spells.length_lt {raw : RawDiagnostic} {line : List Char} (h : raw.Spells line) :
    raw.file.length < line.length := by
  obtain ⟨-, rest, rfl, hfollows⟩ := h
  have hrest := List.length_pos_of_ne_nil hfollows.ne_nil
  rw [List.length_append]
  omega

theorem Spells.positionAtFront? {raw : RawDiagnostic} {front rest : List Char}
    (h : raw.Spells (front ++ rest)) (hlength : raw.file.length = front.length) :
    positionAtFront? rest = some { raw with file := [] } := by
  obtain ⟨-, rest, hline, hfollows⟩ := h
  obtain ⟨-, rfl⟩ := List.append_inj hline hlength.symm
  exact hfollows.positionAtFront?

theorem search?_spec (before cs : List Char) :
    match search? before cs with
    | none => ∀ raw : RawDiagnostic, raw.Spells (before.reverse ++ cs) → raw.file.length < before.length
    | some raw => raw.Reads (before.reverse ++ cs) ∧ before.length ≤ raw.file.length := by
  induction cs generalizing before with
  | nil =>
    intro raw hraw
    simpa using hraw.length_lt
  | cons c cs ih =>
    specialize ih (c :: before)
    rw [List.reverse_cons, List.append_assoc, List.singleton_append] at ih
    rw [search?]
    cases hlater : search? (c :: before) cs with
    | some found =>
      simp only [hlater] at ih ⊢
      exact ⟨ih.1, Nat.le_of_succ_le ih.2⟩
    | none =>
      simp only [hlater] at ih ⊢
      have hle : ∀ raw : RawDiagnostic, raw.Spells (before.reverse ++ c :: cs) →
          raw.file.length ≤ before.length := fun raw hraw => Nat.le_of_lt_succ (ih raw hraw)
      split_ifs with hempty
      · intro raw hraw
        have hpos := List.length_pos_of_ne_nil hraw.1
        have hnil : before.length = 0 := by simpa using hempty
        have := hle raw hraw
        omega
      · cases hfront : positionAtFront? (c :: cs) with
        | none =>
          intro raw hraw
          -- a diagnostic with a file of this very length would be read here
          refine lt_of_le_of_ne (hle raw hraw) fun hlength => ?_
          cases hfront.symm.trans (hraw.positionAtFront? (by simpa using hlength))
        | some found =>
          obtain ⟨-, hfollows⟩ := positionAtFront?_eq_some_iff.mp hfront
          have hne : before.reverse ≠ [] := by simpa using hempty
          refine ⟨⟨⟨hne, c :: cs, rfl, hfollows.withFile _⟩, fun other hother => ?_⟩, by simp⟩
          simpa using hle other hother

/-- **The reader of lines finds the diagnostic that the line reads as.** -/
theorem ofLine?_eq_some_iff {line : List Char} {raw : RawDiagnostic} :
    ofLine? line = some raw ↔ raw.Reads line := by
  have hspec := search?_spec [] line
  rw [List.reverse_nil, List.nil_append] at hspec
  rw [ofLine?]
  cases hfound : search? [] line with
  | none =>
    simp only [hfound] at hspec
    exact iff_of_false (fun h => by cases h) fun h => absurd (hspec raw h.1) (Nat.not_lt_zero _)
  | some found =>
    simp only [hfound, Option.some.injEq] at hspec ⊢
    constructor
    · rintro rfl
      exact hspec.1
    · intro hraw
      exact hspec.1.1.unique hraw.1 (le_antisymm (hraw.2 found hspec.1.1) (hspec.1.2 raw hraw.1))

theorem ofLine?_eq_none_iff {line : List Char} :
    ofLine? line = none ↔ ∀ raw : RawDiagnostic, ¬ raw.Spells line := by
  have hspec := search?_spec [] line
  rw [List.reverse_nil, List.nil_append] at hspec
  rw [ofLine?]
  cases hfound : search? [] line with
  | none =>
    simp only [hfound] at hspec
    exact iff_of_true rfl fun raw hraw => absurd (hspec raw hraw) (Nat.not_lt_zero _)
  | some found =>
    simp only [hfound] at hspec
    exact iff_of_false (fun h => by cases h) fun h => h found hspec.1.1

end RawDiagnostic

/-! ## Outputs -/

/-- The diagnostics that some lines read as, in their order; lines that spell none are passed over. -/
inductive Diagnostic.Found : List (List Char) → List Diagnostic → Prop
  | nil : Found [] []
  | pass {line : List Char} {lines : List (List Char)} {found : List Diagnostic}
      (hline : ∀ raw : RawDiagnostic, ¬ raw.Spells (Text.trimChars line)) (hlines : Found lines found) :
      Found (line :: lines) found
  | read {line : List Char} {lines : List (List Char)} {raw : RawDiagnostic} {diagnostic : Diagnostic}
      {found : List Diagnostic} (hline : raw.Reads (Text.trimChars line))
      (hread : raw.read = .ok diagnostic) (hlines : Found lines found) :
      Found (line :: lines) (diagnostic :: found)

end Tool

end Lintel
