import Lintel.Number.Digits
import Lintel.Proofs.Text.Blank
import Lintel.Proofs.Tool.DiagnosticLine

/-!
# Printed diagnostics

The type checker prints a diagnostic on a line of its own (`Diagnostic.text`), between lines that say other
things. The file may itself look like a position; only a message that holds one is taken for the rest of the
line of another diagnostic (`HoldsPosition`).

* `Text.filterMap_splitLines_intercalate`: the lines of a text that was put together from lines;
* `numberOf_intText`: the digits of a number are read as this number;
* `RawDiagnostic.reads_raw_iff`: when the line of a diagnostic reads as this diagnostic;
* **`Diagnostic.ofOutput_printed_iff`**: the diagnostics that are printed are those that are read, in their
  order, exactly if no message holds a position.
-/

namespace Lintel

namespace Text

/-- The text has no line break. -/
def OneLine (cs : List Char) : Prop := ∀ c ∈ cs, isLineBreak c = false

-- a bounded quantifier over characters is decided along the list, not by going through all characters
instance : DecidablePred OneLine := fun cs => List.decidableBAll _ cs

instance : DecidablePred Trimmed := fun cs =>
  @instDecidableAnd _ _ (Option.decidableForallMem cs.head?) (Option.decidableForallMem cs.getLast?)

/-- The characters end a line. -/
def IsNewline (newline : String) : Prop := newline = "\n" ∨ newline = "\r\n"

variable {cs rest : List Char} {newline : String}

theorem splitLines_cons (c : Char) (cs : List Char) (h : isLineBreak c = false) :
    splitLines (c :: cs) = consFirst c (splitLines cs) := by
  have hc : c ≠ '\r' := by
    rintro rfl
    cases h
  rw [splitLines]
  · simp [h]
  · intro _ heq
    exact absurd heq hc

theorem splitLines_of_oneLine (hne : cs ≠ []) (h : OneLine cs) : splitLines cs = [cs] := by
  induction cs with
  | nil => exact absurd rfl hne
  | cons c cs ih =>
    obtain ⟨hc, hcs⟩ := List.forall_mem_cons.mp h
    rw [splitLines_cons c cs hc]
    by_cases hnil : cs = []
    · simp [hnil, splitLines, consFirst]
    · rw [ih hnil hcs, consFirst]

theorem splitLines_newline_append (h : IsNewline newline) (rest : List Char) :
    splitLines (newline.toList ++ rest) = [] :: splitLines rest := by
  rcases h with rfl | rfl
  · change splitLines ('\n' :: rest) = _
    rw [splitLines]
    · rfl
    · intro _ heq
      exact absurd heq (by decide)
  · change splitLines ('\r' :: '\n' :: rest) = _
    rw [splitLines]

theorem splitLines_append (h : IsNewline newline) (hcs : OneLine cs) :
    splitLines (cs ++ newline.toList ++ rest) = cs :: splitLines rest := by
  induction cs with
  | nil => exact splitLines_newline_append h rest
  | cons c cs ih =>
    obtain ⟨hc, hcs⟩ := List.forall_mem_cons.mp hcs
    rw [List.cons_append, List.cons_append, splitLines_cons c _ hc, ih hcs, consFirst]

/-- **Lines that are put together fall apart again**; only an empty line at the end is lost. -/
theorem filterMap_splitLines_intercalate {α : Type} {read : List Char → Option α} (hread : read [] = none)
    (h : IsNewline newline) {lines : List String} (hlines : ∀ line ∈ lines, OneLine line.toList) :
    (splitLines (newline.intercalate lines).toList).filterMap read =
      lines.filterMap fun line => read line.toList := by
  induction lines with
  | nil => rfl
  | cons line lines ih =>
    obtain ⟨hline, hlines⟩ := List.forall_mem_cons.mp hlines
    cases lines with
    | nil =>
      rw [String.intercalate_singleton]
      by_cases hnil : line.toList = []
      · simp [hnil, splitLines, hread]
      · simp [splitLines_of_oneLine hnil hline, List.filterMap_cons]
    | cons next lines =>
      have hsplit : (newline.intercalate (line :: next :: lines)).toList =
          line.toList ++ newline.toList ++ (newline.intercalate (next :: lines)).toList := by
        simp [String.toList_intercalate]
      rw [hsplit, splitLines_append h hline, List.filterMap_cons, List.filterMap_cons, ih hlines]

theorem trimChars_of_trimmed (h : Trimmed cs) : trimChars cs = cs :=
  (trimChars_isInfix cs).eq_of_length_le (infix_trimChars h List.infix_rfl).length_le

end Text

/-! ## Numbers -/

namespace Number

theorem digitValue?_of_isDigit {c : Char} (h : c.isDigit = true) :
    Unicode.digitValue? c = some (c.toNat - 48) := by
  have hrange : 48 ≤ c.toNat ∧ c.toNat ≤ 57 := by
    simpa [Char.isDigit, UInt32.le_iff_toNat_le] using h
  have hascii : c.toNat < 128 := by omega
  simp [Unicode.digitValue?, hascii, h]

theorem ofDigits_digitValues {cs : List Char} (h : ∀ c ∈ cs, c.isDigit = true) :
    ofDigits (digitValues cs) = Nat.ofDigitChars 10 cs 0 := by
  have hvalues : digitValues cs = cs.map fun c => c.toNat - 48 := by
    unfold digitValues
    rw [← List.filterMap_eq_map]
    exact List.filterMap_congr fun c hc => digitValue?_of_isDigit (h c hc)
  rw [hvalues, ofDigits, List.foldl_map, Nat.ofDigitChars_eq_foldl]
  simp [Nat.mul_comm]

theorem isLineBreak_of_isDecimal {c : Char} (h : Unicode.isDecimal c = true) :
    Text.isLineBreak c = false := by
  obtain ⟨base, hbase, hlow, hhigh⟩ := exists_zero_of_isDecimal h
  have hapart := zeros_apart base hbase
  simp only [Text.isLineBreak, Bool.or_eq_false_iff, Bool.and_eq_false_iff, decide_eq_false_iff_not,
    beq_eq_false_iff_ne]
  omega

theorem toList_intText {n : Int} (h : 0 ≤ n) : (intText n).toList = Nat.toDigits 10 n.toNat := by
  have habs : n.natAbs = n.toNat := by omega
  rw [intText, if_neg (by omega), String.toList_ofList, digitsOf, habs]

end Number

namespace Tool

instance : DecidablePred IsDigits := fun cs => @instDecidableAnd _ _ inferInstance (List.decidableBAll _ cs)

theorem isDigits_intText {n : Int} (h : 0 ≤ n) : IsDigits (Number.intText n).toList := by
  rw [Number.toList_intText h]
  refine ⟨Nat.toDigits_ne_nil, fun c hc => ?_⟩
  have hdigit : c.isDigit = true := Nat.isDigit_of_mem_toDigits (by decide) (by decide) hc
  rw [Unicode.isDecimal, Number.digitValue?_of_isDigit hdigit]
  rfl

/-- **The digits of a number are read as this number.** -/
theorem numberOf_intText {n : Int} (h : 0 ≤ n)
    (hshort : (Number.intText n).toList.length ≤ Number.maxIntegerDigits) :
    numberOf (Number.intText n).toList = .ok n := by
  obtain ⟨hne, hdecimal⟩ := isDigits_intText h
  have hvalue : Number.ofDigits (Number.digitValues (Number.intText n).toList) = n.toNat := by
    rw [Number.toList_intText h, Number.ofDigits_digitValues,
      Nat.ofDigitChars_toDigits (by decide) (by decide)]
    exact fun c hc => Nat.isDigit_of_mem_toDigits (by decide) (by decide) hc
  have hread : Number.readInteger (Number.intText n).toList = .ok n := by
    rw [Number.readInteger_of_decimal hne hdecimal, if_neg (Nat.not_lt.mpr hshort), hvalue,
      Int.toNat_of_nonneg h]
  simp only [numberOf, Json.wholeNumber, String.toList_ofList, hread]

/-! ## The line of a diagnostic -/

namespace Diagnostic

/-- The line that is printed for a diagnostic. -/
def text (d : Diagnostic) : String :=
  d.file ++ "(" ++ Number.intText d.line ++ "," ++ Number.intText d.column ++ "): error " ++ d.code ++
    ": " ++ d.message

/-- The text is not empty, stands on one line, and has no blanks at its ends. -/
structure IsPhrase (cs : List Char) : Prop where
  ne_nil : cs ≠ []
  oneLine : Text.OneLine cs
  trimmed : Text.Trimmed cs

instance : DecidablePred IsPhrase := fun cs =>
  decidable_of_iff (cs ≠ [] ∧ Text.OneLine cs ∧ Text.Trimmed cs)
    ⟨fun h => ⟨h.1, h.2.1, h.2.2⟩, fun h => ⟨h.1, h.2, h.3⟩⟩

/-- The diagnostic can be printed on a line. -/
structure Printable (d : Diagnostic) : Prop where
  file : IsPhrase d.file.toList
  message : IsPhrase d.message.toList
  code : ∃ number, IsDigits number ∧ d.code.toList = ['T', 'S'] ++ number
  nonneg : 0 ≤ d.line ∧ 0 ≤ d.column
  short : (Number.intText d.line).toList.length ≤ Number.maxIntegerDigits ∧
    (Number.intText d.column).toList.length ≤ Number.maxIntegerDigits

/-- The diagnostic as it is printed, its numbers as text. -/
def raw (d : Diagnostic) : RawDiagnostic :=
  ⟨d.file.toList, (Number.intText d.line).toList, (Number.intText d.column).toList, d.code.toList,
    d.message.toList⟩

/-- What stands between the first bracket after the file and the message. -/
def between (d : Diagnostic) : List Char :=
  (Number.intText d.line).toList ++ [','] ++ (Number.intText d.column).toList ++ "): error ".toList ++
    d.code.toList ++ ": ".toList

theorem toList_text (d : Diagnostic) :
    d.text.toList = d.file.toList ++ '(' :: (d.between ++ d.message.toList) := by
  simp [text, between]

theorem tail_raw (d : Diagnostic) :
    d.raw.tail [' '] [' '] [' '] = '(' :: (d.between ++ d.message.toList) := by
  simp [raw, RawDiagnostic.tail, between]

variable {d : Diagnostic}

theorem read_raw (h : d.Printable) : d.raw.read = .ok d := by
  unfold RawDiagnostic.read raw
  rw [numberOf_intText h.nonneg.1 h.short.1, ok_bind, numberOf_intText h.nonneg.2 h.short.2, ok_bind]
  simp only [String.ofList_toList]
  rfl

theorem file_of_read {other : RawDiagnostic} (h : other.read = .ok d) : other.file = d.file.toList := by
  obtain ⟨line, -, hrest⟩ := bind_eq_ok.mp h
  obtain ⟨column, -, hread⟩ := bind_eq_ok.mp hrest
  rw [← Except.ok.inj hread, String.toList_ofList]

theorem follows_raw (h : d.Printable) : d.raw.Follows ('(' :: (d.between ++ d.message.toList)) := by
  rw [← tail_raw]
  have hblanks : IsBlanks [' '] := ⟨List.cons_ne_nil _ _, List.forall_mem_singleton.mpr rfl⟩
  refine ⟨⟨isDigits_intText h.nonneg.1, isDigits_intText h.nonneg.2⟩, h.code, ?_, ?_⟩
  · obtain ⟨c, cs, hmessage⟩ := List.exists_cons_of_ne_nil h.message.ne_nil
    exact ⟨c, cs, hmessage, h.message.trimmed.1 c (by rw [hmessage]; rfl)⟩
  · exact ⟨_, _, _, hblanks, hblanks, hblanks, rfl⟩

theorem spells_raw (h : d.Printable) : d.raw.Spells d.text.toList :=
  ⟨h.file.ne_nil, _, toList_text d, follows_raw h⟩

/-- What stands between the file and the message beside the digits. -/
def signs : List Char := ",): errorTS".toList

theorem of_mem_between (h : d.Printable) {c : Char} (hc : c ∈ d.between) :
    Unicode.isDecimal c = true ∨ c ∈ signs := by
  obtain ⟨number, hnumber, hcode⟩ := h.code
  have hline := isDigits_intText h.nonneg.1
  have hcolumn := isDigits_intText h.nonneg.2
  simp only [between, hcode, List.mem_append] at hc
  rcases hc with ((((hc | hc) | hc) | hc) | hc | hc) | hc
  · exact .inl (hline.2 c hc)
  · exact .inr ((by decide : [','] ⊆ signs) hc)
  · exact .inl (hcolumn.2 c hc)
  · exact .inr ((by decide : "): error ".toList ⊆ signs) hc)
  · exact .inr ((by decide : ['T', 'S'] ⊆ signs) hc)
  · exact .inl (hnumber.2 c hc)
  · exact .inr ((by decide : ": ".toList ⊆ signs) hc)

theorem oneLine_text (h : d.Printable) : Text.OneLine d.text.toList := by
  have hsigns : Text.OneLine signs := by decide
  intro c hc
  rw [toList_text, List.mem_append, List.mem_cons, List.mem_append] at hc
  rcases hc with hc | rfl | hc | hc
  · exact h.file.oneLine c hc
  · rfl
  · rcases of_mem_between h hc with hdecimal | hsign
    · exact Number.isLineBreak_of_isDecimal hdecimal
    · exact hsigns c hsign
  · exact h.message.oneLine c hc

theorem getLast?_text (h : d.Printable) : d.text.toList.getLast? = d.message.toList.getLast? := by
  unfold text
  rw [String.toList_append, List.getLast?_append_of_ne_nil _ h.message.ne_nil]

theorem head?_text (h : d.Printable) : d.text.toList.head? = d.file.toList.head? := by
  rw [toList_text, List.head?_append_of_ne_nil _ h.file.ne_nil]

theorem trimmed_text (h : d.Printable) : Text.Trimmed d.text.toList := by
  constructor
  · rw [head?_text h]
    exact h.file.trimmed.1
  · rw [getLast?_text h]
    exact h.message.trimmed.2

/-! ## Messages that hold a position -/

/-- Some end of the text reads like what stands after the file in the line of a diagnostic. -/
def HoldsPosition (message : List Char) : Prop :=
  ∃ rest, rest <:+ message ∧ ∃ other : RawDiagnostic, other.Follows rest

theorem exists_cons_of_follows {other : RawDiagnostic} {rest : List Char} (h : other.Follows rest) :
    ∃ cs, rest = '(' :: cs := by
  obtain ⟨_, _, _, -, -, -, hrest⟩ := h.spelt
  exact ⟨_, by rw [hrest, RawDiagnostic.tail]; simp only [List.append_assoc]; rfl⟩

theorem suffix_of_not_mem {c : Char} {front back before rest : List Char} (hc : c ∉ front)
    (h : front ++ back = before ++ c :: rest) : c :: rest <:+ back := by
  rcases List.append_eq_append_iff.mp h with ⟨more, -, hback⟩ | ⟨more, hfront, hrest⟩
  · exact ⟨more, hback.symm⟩
  · cases more with
    | nil => exact hrest ▸ List.suffix_rfl
    | cons first more =>
      have hfirst : c = first := (List.cons.inj hrest).1
      exact absurd (by simp [hfront, hfirst]) hc

theorem bracket_not_mem_between (h : d.Printable) : '(' ∉ d.between := by
  intro hmem
  rcases of_mem_between h hmem with hdecimal | hsign
  · exact absurd hdecimal (by decide)
  · exact absurd hsign (by decide)

/-- **The line of a diagnostic reads as this diagnostic** exactly if the message holds no position. -/
theorem reads_raw_iff (h : d.Printable) :
    d.raw.Reads d.text.toList ↔ ¬ HoldsPosition d.message.toList := by
  constructor
  · rintro hreads ⟨rest, ⟨front, hmessage⟩, other, hfollows⟩
    let longer := d.file.toList ++ '(' :: (d.between ++ front)
    have htext : d.text.toList = longer ++ rest := by simp [longer, toList_text, ← hmessage]
    have hspells : RawDiagnostic.Spells { other with file := longer } d.text.toList :=
      ⟨by simp [longer], rest, htext, hfollows.withFile longer⟩
    have hlonger : d.file.toList.length < longer.length := by
      rw [List.length_append]
      exact Nat.lt_add_of_pos_right (Nat.succ_pos _)
    exact absurd (hreads.2 _ hspells) (Nat.not_le.mpr hlonger)
  · intro hnone
    refine ⟨spells_raw h, fun other hother => ?_⟩
    obtain ⟨-, rest, htext, hfollows⟩ := hother
    obtain ⟨cs, rfl⟩ := exists_cons_of_follows hfollows
    rw [toList_text] at htext
    rcases List.append_eq_append_iff.mp htext with ⟨more, hfile, hrest⟩ | ⟨more, hfile, -⟩
    · -- a file that goes on ends in the message
      cases more with
      | nil => simp [raw, hfile]
      | cons first more =>
        have hsplit : d.between ++ d.message.toList = more ++ '(' :: cs := (List.cons.inj hrest).2
        exact absurd ⟨_, suffix_of_not_mem (bracket_not_mem_between h) hsplit, other, hfollows⟩ hnone
    · rw [raw, hfile, List.length_append]
      exact Nat.le_add_right _ _

theorem ofLine?_text (h : d.Printable) :
    ∃ raw, RawDiagnostic.ofLine? (Text.trimChars d.text.toList) = some raw ∧
      (raw.read = .ok d ↔ ¬ HoldsPosition d.message.toList) := by
  rw [Text.trimChars_of_trimmed (trimmed_text h)]
  have hsome : RawDiagnostic.ofLine? d.text.toList ≠ none := fun hnone =>
    RawDiagnostic.ofLine?_eq_none_iff.mp hnone d.raw (spells_raw h)
  obtain ⟨found, hfound⟩ := Option.ne_none_iff_exists'.mp hsome
  have hreads := RawDiagnostic.ofLine?_eq_some_iff.mp hfound
  refine ⟨found, hfound, ?_⟩
  rw [← reads_raw_iff h]
  constructor
  · intro hread
    have hlength : found.file.length = d.raw.file.length := by rw [file_of_read hread, raw]
    rwa [← hreads.1.unique (spells_raw h) hlength]
  · intro hraw
    have hsame := RawDiagnostic.ofLine?_eq_some_iff.mpr hraw
    rw [← Option.some.inj (hsame.symm.trans hfound)]
    exact read_raw h

/-! ## Outputs -/

/-- The line spells no diagnostic. -/
structure SaysElse (line : String) : Prop where
  oneLine : Text.OneLine line.toList
  spellsNone : ∀ other : RawDiagnostic, ¬ other.Spells (Text.trimChars line.toList)

/-- An output of diagnostics and other lines. -/
def printed (newline : String) (items : List (Diagnostic ⊕ String)) : String :=
  newline.intercalate (items.map (Sum.elim text id))

/-- The lines of an output can be told from one another. -/
structure Legible (items : List (Diagnostic ⊕ String)) : Prop where
  printable : ∀ d, .inl d ∈ items → Printable d
  saysElse : ∀ line, .inr line ∈ items → SaysElse line

theorem Legible.tail {item : Diagnostic ⊕ String} {items : List (Diagnostic ⊕ String)}
    (h : Legible (item :: items)) : Legible items :=
  ⟨fun d hd => h.printable d (List.mem_cons_of_mem item hd),
    fun line hline => h.saysElse line (List.mem_cons_of_mem item hline)⟩

theorem rawDiagnostics_printed {newline : String} (hnewline : Text.IsNewline newline)
    {items : List (Diagnostic ⊕ String)} (h : Legible items) :
    rawDiagnostics (printed newline items) = items.filterMap fun item =>
      RawDiagnostic.ofLine? (Text.trimChars (item.elim text id).toList) := by
  have hlines : ∀ line ∈ items.map (Sum.elim text id), Text.OneLine line.toList := by
    intro line hline
    obtain ⟨d | other, hitem, rfl⟩ := List.mem_map.mp hline
    · exact oneLine_text (h.printable d hitem)
    · exact (h.saysElse other hitem).oneLine
  unfold rawDiagnostics printed
  rw [Text.filterMap_splitLines_intercalate rfl hnewline hlines, List.filterMap_map]
  rfl

/-- **The diagnostics that are printed are those that are read**, in their order and between whatever other
lines, exactly if no message holds a position. -/
theorem ofOutput_printed_iff {newline : String} (hnewline : Text.IsNewline newline)
    {items : List (Diagnostic ⊕ String)} (h : Legible items) :
    ofOutput (printed newline items) = .ok (items.filterMap Sum.getLeft?) ↔
      ∀ d, .inl d ∈ items → ¬ HoldsPosition d.message.toList := by
  rw [ofOutput_eq, rawDiagnostics_printed hnewline h, mapM_eq_ok]
  induction items with
  | nil => simp
  | cons item items ih =>
    have ih := ih h.tail
    rcases item with d | line
    · have hd := h.printable d List.mem_cons_self
      obtain ⟨raw, hline, hread⟩ := ofLine?_text hd
      simp only [List.filterMap_cons, Sum.elim_inl, hline, Sum.getLeft?_inl, List.forall₂_cons, ih, hread,
        List.mem_cons, Sum.inl.injEq, forall_eq_or_imp]
    · have hnone := RawDiagnostic.ofLine?_eq_none_iff.mpr (h.saysElse line List.mem_cons_self).spellsNone
      simp only [List.filterMap_cons, Sum.elim_inr, id_eq, hnone, Sum.getLeft?_inr, ih, List.mem_cons,
        reduceCtorEq, false_or]

theorem not_holdsPosition_of_not_mem {message : List Char} (h : '(' ∉ message) : ¬ HoldsPosition message := by
  rintro ⟨rest, hsuffix, other, hfollows⟩
  obtain ⟨cs, rfl⟩ := exists_cons_of_follows hfollows
  exact h (hsuffix.subset List.mem_cons_self)

/-- A file that looks like a diagnostic with a position is read as a file. -/
theorem ofOutput_printed_misleading :
    let d : Diagnostic := ⟨"src (old)/a.ts(1,2): error TS9: b.ts", 30, 4, "TS2304", "Cannot find name."⟩
    let items := [.inr "Starting", .inl d, .inr "", .inr "a.ts(1,2): error: none", .inl d]
    Legible items ∧ Text.IsNewline "\r\n" ∧ ofOutput (printed "\r\n" items) = .ok [d, d] := by
  intro d items
  have hprintable : d.Printable :=
    ⟨by decide +kernel, by decide +kernel, ⟨['2', '3', '0', '4'], by decide, by decide⟩, by decide,
      by decide +kernel⟩
  have helse : ∀ line ∈ ["Starting", "", "a.ts(1,2): error: none"], SaysElse line := by
    intro line hline
    have hone : ∀ line ∈ ["Starting", "", "a.ts(1,2): error: none"], Text.OneLine line.toList ∧
        RawDiagnostic.ofLine? (Text.trimChars line.toList) = none := by decide +kernel
    exact ⟨(hone line hline).1, RawDiagnostic.ofLine?_eq_none_iff.mp (hone line hline).2⟩
  have hlegible : Legible items := by
    constructor
    · intro other hother
      obtain rfl : other = d := by simpa [items] using hother
      exact hprintable
    · intro line hline
      exact helse line (by simpa [items] using hline)
  have hnewline : Text.IsNewline "\r\n" := .inr rfl
  refine ⟨hlegible, hnewline, (ofOutput_printed_iff hnewline hlegible).mpr fun other hother => ?_⟩
  obtain rfl : other = d := by simpa [items] using hother
  exact not_holdsPosition_of_not_mem (by decide)

/-- Some end of the text is printed as what stands after the file in the line of a diagnostic. -/
def HoldsPrinted (message : List Char) : Prop :=
  ∃ other : Diagnostic, '(' :: (other.between ++ other.message.toList) <:+ message

/-- **A position that is not as it would be printed** is taken for that of a diagnostic too. -/
theorem not_forall_ofOutput_printed :
    ¬ ∀ (newline : String) (items : List (Diagnostic ⊕ String)), Text.IsNewline newline → Legible items →
      (∀ d, .inl d ∈ items → ¬ HoldsPrinted d.message.toList) →
        ofOutput (printed newline items) = .ok (items.filterMap Sum.getLeft?) := by
  intro hall
  let d : Diagnostic := ⟨"a.ts", 1, 2, "TS1", "see b.ts (3,4):  error TS2: gone"⟩
  have hprintable : d.Printable :=
    ⟨by decide +kernel, by decide +kernel, ⟨['1'], by decide, by decide⟩, by decide, by decide +kernel⟩
  have hlegible : Legible [.inl d] := by
    constructor
    · intro other hother
      obtain rfl : other = d := by simpa using hother
      exact hprintable
    · intro line hline
      simp at hline
  have hspelt : ¬ HoldsPrinted d.message.toList := by
    rintro ⟨other, hsuffix⟩
    have hword : "): error ".toList <:+: '(' :: (other.between ++ other.message.toList) := by
      unfold between
      refine ⟨'(' :: (Number.intText other.line).toList ++ [','] ++ (Number.intText other.column).toList,
        other.code.toList ++ ": ".toList ++ other.message.toList, by simp⟩
    have hmessage := hword.trans hsuffix.isInfix
    revert hmessage
    decide +kernel
  have hread := hall "\n" [.inl d] (.inl rfl) hlegible fun other hother => by
    obtain rfl : other = d := by simpa using hother
    exact hspelt
  have hfiles : (ofOutput (printed "\n" [.inl d])).toOption.map (List.map Diagnostic.file) =
      some ["a.ts(1,2): error TS1: see b.ts "] := by decide +kernel
  rw [hread] at hfiles
  revert hfiles
  decide

end Diagnostic

end Tool

end Lintel
