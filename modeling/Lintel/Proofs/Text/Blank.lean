import Lintel.Text.Blank
import Mathlib.Data.List.DropRight

/-!
# Trimmed texts

* `Trimmed`: no blank stands at either end;
* `trimmed_trimChars`, `trimChars_eq_nil_iff`: trimming leaves a trimmed text, and nothing of a text of
  blanks only;
* `infix_trimChars`, `mem_trimChars`: a part without blanks at its ends is not lost, nor is a character that is
  not blank; `trimChars_isInfix`: nothing is added;
* `trim_eq_empty_iff`: the same for strings;
* `append_ne_empty`: a text that starts with another one is not empty if that one is not.
-/

namespace Lintel.Text

/-- Neither the first nor the last character is blank. -/
def Trimmed (cs : List Char) : Prop :=
  (∀ c, cs.head? = some c → isBlank c = false) ∧ ∀ c, cs.getLast? = some c → isBlank c = false

theorem trimEnd_eq_rdropWhile (cs : List Char) : trimEnd cs = cs.rdropWhile isBlank := rfl

theorem trimEnd_prefix (cs : List Char) : trimEnd cs <+: cs := by
  rw [trimEnd_eq_rdropWhile]
  exact List.rdropWhile_prefix isBlank cs

theorem head?_trimStart {cs : List Char} {c : Char} (h : (trimStart cs).head? = some c) :
    isBlank c = false := by
  have hnot := List.head?_dropWhile_not isBlank cs
  rw [trimStart] at h
  rw [h] at hnot
  exact hnot

theorem getLast?_trimEnd {cs : List Char} {c : Char} (h : (trimEnd cs).getLast? = some c) :
    isBlank c = false := by
  rw [trimEnd_eq_rdropWhile] at h
  obtain ⟨hne, rfl⟩ := List.mem_getLast?_eq_getLast h
  exact Bool.eq_false_iff.mpr (List.rdropWhile_last_not isBlank cs hne)

/-- **Trimming leaves no blank at the ends.** -/
theorem trimmed_trimChars (cs : List Char) : Trimmed (trimChars cs) := by
  refine ⟨fun c hc => ?_, fun c hc => getLast?_trimEnd hc⟩
  have hmem : (trimStart cs).head? = some c := by
    obtain ⟨rest, hrest⟩ := trimEnd_prefix (trimStart cs)
    rw [← hrest, List.head?_append, ← trimChars, hc]
    rfl
  exact head?_trimStart hmem

theorem trimChars_eq_nil_iff (cs : List Char) :
    trimChars cs = [] ↔ ∀ c ∈ cs, isBlank c = true := by
  rw [trimChars, trimEnd_eq_rdropWhile, List.rdropWhile_eq_nil_iff]
  constructor
  · intro h
    by_contra hblank
    -- the first character that is not blank is the first one that trimming keeps
    have hne : trimStart cs ≠ [] := fun hnil => hblank (List.dropWhile_eq_nil_iff.mp hnil)
    obtain ⟨c, rest, hcons⟩ := List.exists_cons_of_ne_nil hne
    have hnot : isBlank c = false := head?_trimStart (by rw [hcons]; rfl)
    have hyes := h c (by rw [hcons]; exact List.mem_cons_self)
    rw [hnot] at hyes
    exact Bool.noConfusion hyes
  · intro h c hc
    exact h c ((List.dropWhile_sublist isBlank).subset hc)

/-! ## Parts of trimmed texts -/

theorem trimChars_isInfix (cs : List Char) : trimChars cs <:+: cs := by
  have hend : trimChars cs <+: trimStart cs := trimEnd_prefix (trimStart cs)
  exact hend.isInfix.trans (List.dropWhile_suffix isBlank).isInfix

theorem infix_trimStart {part cs : List Char} (h : part <:+: cs)
    (hhead : ∀ c, part.head? = some c → isBlank c = false) : part <:+: trimStart cs := by
  obtain ⟨front, back, rfl⟩ := h
  cases part with
  | nil => exact List.nil_infix
  | cons c part =>
    have hc : isBlank c = false := hhead c rfl
    rw [trimStart, List.append_assoc, List.dropWhile_append]
    split_ifs
    · rw [List.cons_append, List.dropWhile_cons_of_neg (by rw [hc]; exact Bool.false_ne_true)]
      exact (List.prefix_append (c :: part) back).isInfix
    · exact List.infix_append' _ _ _

/-- **Trimming keeps every part that has no blanks at its ends.** -/
theorem infix_trimChars {part cs : List Char} (htrimmed : Trimmed part) (h : part <:+: cs) :
    part <:+: trimChars cs := by
  have hstart : part <:+: trimStart cs := infix_trimStart h htrimmed.1
  -- the other end is the same with both texts reversed
  have hend : part.reverse <:+: trimStart (trimStart cs).reverse := by
    refine infix_trimStart (List.reverse_infix.mpr hstart) fun c hc => htrimmed.2 c ?_
    rwa [List.head?_reverse] at hc
  rw [trimChars, trimEnd, ← List.reverse_infix, List.reverse_reverse]
  exact hend

theorem mem_trimChars {c : Char} {cs : List Char} (hmem : c ∈ cs) (hc : isBlank c = false) :
    c ∈ trimChars cs := by
  have htrimmed : Trimmed [c] := by
    refine ⟨fun d hd => ?_, fun d hd => ?_⟩
    · cases hd
      exact hc
    · cases hd
      exact hc
  have hpart : [c] <:+: cs := by
    obtain ⟨front, back, rfl⟩ := List.append_of_mem hmem
    exact ⟨front, back, by simp⟩
  exact (infix_trimChars htrimmed hpart).subset (List.mem_singleton.mpr rfl)

/-! ## Strings -/

theorem trim_eq_empty_iff (s : String) :
    trim s = "" ↔ ∀ c ∈ s.toList, isBlank c = true := by
  rw [← trimChars_eq_nil_iff, trim, String.ofList_eq_empty_iff]

theorem trimmed_trim (s : String) : Trimmed (trim s).toList := by
  rw [trim, String.toList_ofList]
  exact trimmed_trimChars s.toList

theorem append_ne_empty {front : String} (h : front ≠ "") (back : String) : front ++ back ≠ "" := by
  rw [ne_eq, String.append_eq_empty_iff]
  exact fun hboth => h hboth.1

end Lintel.Text
