import Lintel.Number.Integer
import Lintel.Proofs.Except

/-!
# Rows of digits

* `readInteger_of_decimal`, **`ends_readInteger_iff`**: a row of decimal digits is read as a whole number,
  unless there are too many of them.
-/

namespace Lintel.Number

open Unicode (isDecimal digitValue? zeros)

theorem zeros_apart : ∀ base ∈ zeros, base = 48 ∨
    (0x0660 ≤ base ∧ base + 10 ≤ 0x1680) ∨ (0x1681 ≤ base ∧ base + 10 ≤ 0x2000) ∨ 0x3001 ≤ base := by
  decide

theorem exists_zero_of_isDecimal {c : Char} (h : isDecimal c = true) :
    ∃ base ∈ zeros, base ≤ c.toNat ∧ c.toNat < base + 10 := by
  rw [isDecimal, digitValue?] at h
  split_ifs at h with hascii hdigit
  · refine ⟨48, by decide, ?_⟩
    simp only [Char.isDigit, Bool.and_eq_true, decide_eq_true_eq, ge_iff_le,
      UInt32.le_iff_toNat_le] at hdigit
    change 48 ≤ c.toNat ∧ c.toNat ≤ 57 at hdigit
    omega
  · exact absurd h (by simp)
  · rw [Option.isSome_map] at h
    obtain ⟨base, hbase⟩ := Option.isSome_iff_exists.mp h
    have hrow := List.find?_some hbase
    simp only [Bool.and_eq_true, decide_eq_true_eq] at hrow
    exact ⟨base, List.mem_of_find?_eq_some hbase, hrow⟩

theorem isNumberBlank_of_isDecimal {c : Char} (h : isDecimal c = true) : isNumberBlank c = false := by
  obtain ⟨base, hbase, hlow, hhigh⟩ := exists_zero_of_isDecimal h
  have hapart := zeros_apart base hbase
  simp only [isNumberBlank, Text.isBlank, Bool.and_eq_false_iff, Bool.or_eq_false_iff,
    decide_eq_false_iff_not, beq_eq_false_iff_ne]
  omega

theorem splitSign_of_isDecimal {c : Char} (h : isDecimal c = true) (cs : List Char) :
    splitSign (c :: cs) = (false, c :: cs) := by
  have hplus : c ≠ '+' := by
    rintro rfl
    exact absurd h (by decide)
  have hminus : c ≠ '-' := by
    rintro rfl
    exact absurd h (by decide)
  simp [splitSign, hplus, hminus]

/-- The values of a row of digits. -/
def digitValues (cs : List Char) : List Nat := cs.filterMap digitValue?

theorem groupedDigits?_of_decimal {cs : List Char} (h : ∀ c ∈ cs, isDecimal c = true)
    {needed : Bool} (hneeded : needed = true → cs ≠ []) :
    groupedDigits? needed cs = some (digitValues cs, []) := by
  induction cs generalizing needed with
  | nil =>
    cases needed with
    | true => exact absurd rfl (hneeded rfl)
    | false => rfl
  | cons c cs ih =>
    obtain ⟨hc, hcs⟩ := List.forall_mem_cons.mp h
    obtain ⟨value, hvalue⟩ := Option.isSome_iff_exists.mp hc
    rw [groupedDigits?, hvalue]
    simp [ih hcs, digitValues, hvalue]

theorem length_digitValues {cs : List Char} (h : ∀ c ∈ cs, isDecimal c = true) :
    (digitValues cs).length = cs.length := by
  rw [digitValues, List.length_filterMap_eq_countP, List.countP_eq_length]
  exact h

theorem readInteger_of_decimal {cs : List Char} (hne : cs ≠ [])
    (h : ∀ c ∈ cs, isDecimal c = true) :
    readInteger cs =
      if maxIntegerDigits < cs.length then .error (.tooLong cs.length)
      else .ok (ofDigits (digitValues cs)) := by
  obtain ⟨c, rest, rfl⟩ := List.exists_cons_of_ne_nil hne
  have hc := h c List.mem_cons_self
  have hblank : (c :: rest).dropWhile isNumberBlank = c :: rest := by
    rw [List.dropWhile_cons_of_neg (by simp [isNumberBlank_of_isDecimal hc])]
  rw [readInteger, hblank, splitSign_of_isDecimal hc]
  simp only [groupedDigits?_of_decimal h fun _ => hne, length_digitValues h]
  rfl

/-- **A row of digits is a whole number** if there are not too many of them. -/
theorem ends_readInteger_iff {cs : List Char} (hne : cs ≠ []) (h : ∀ c ∈ cs, isDecimal c = true) :
    Ends (readInteger cs) ↔ cs.length ≤ maxIntegerDigits := by
  rw [readInteger_of_decimal hne h]
  split_ifs with hlong
  · exact iff_of_false (not_ends_error _) (Nat.not_le.mpr hlong)
  · exact iff_of_true (ends_ok _) (Nat.not_lt.mp hlong)

end Lintel.Number
