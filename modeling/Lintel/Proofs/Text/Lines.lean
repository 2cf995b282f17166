import Lintel.Text.Lines
import Mathlib.Data.List.GetD
import Mathlib.Data.List.TakeWhile
import Mathlib.Order.Nat

/-!
# Numbered lines

A text falls into lines at the characters that end one. What stands before a line are whole lines, as many as
there are such characters, so a line has the number of them before it.

* `linesBy`: the lines between characters that end one; `splitLines_eq_linesBy`;
* `IsLine`: a line of a text, with what stands before and after it;
* **`getElem?_linesBy`**: the lines in order are the lines of the text, each with its number;
* `exists_isLine_of_mem`: a character that ends no line stands in one;
* `linesBy_congr`, `countP_eq_count_iff`: texts in which only line feeds end a line.
-/

namespace Lintel.Text

variable {ends other : Char → Bool} {cs before line after rest : List Char} {c : Char}

/-- The lines of a text, without the characters that end them; the end of the text needs none. -/
def linesBy (ends : Char → Bool) : List Char → List (List Char)
  | [] => []
  | c :: cs => if ends c then [] :: linesBy ends cs else consFirst c (linesBy ends cs)

/-- Without carriage returns, a line is ended by one character. -/
theorem splitLines_eq_linesBy (h : '\r' ∉ cs) : splitLines cs = linesBy isLineBreak cs := by
  induction cs with
  | nil => rfl
  | cons c cs ih =>
    obtain ⟨hc, hcs⟩ : '\r' ≠ c ∧ '\r' ∉ cs := by simpa using h
    rw [splitLines, linesBy, ih hcs]
    rintro _ rfl
    exact absurd rfl hc

/-- In the text stands a line, after whole lines and before the end of the text or what ends the line; at the
end of the text there is no empty line. -/
structure IsLine (ends : Char → Bool) (cs before line after : List Char) : Prop where
  whole : cs = before ++ (line ++ after)
  starts : ∀ c ∈ before.getLast?, ends c = true
  stops : ∀ c ∈ after.head?, ends c = true
  unbroken : ∀ c ∈ line, ends c = false
  somewhere : line ≠ [] ∨ after ≠ []

/-! ## Lines in order -/

theorem linesBy_of_unbroken (hne : line ≠ []) (h : ∀ c ∈ line, ends c = false) :
    linesBy ends line = [line] := by
  induction line with
  | nil => exact absurd rfl hne
  | cons c line ih =>
    obtain ⟨hc, hline⟩ := List.forall_mem_cons.mp h
    cases line with
    | nil => simp [linesBy, hc, consFirst]
    | cons d line => rw [linesBy, ih (List.cons_ne_nil d line) hline, hc]; rfl

theorem linesBy_append_cons (h : ∀ c ∈ line, ends c = false) (hc : ends c = true) :
    linesBy ends (line ++ c :: rest) = line :: linesBy ends rest := by
  induction line with
  | nil => simp [linesBy, hc]
  | cons d line ih =>
    obtain ⟨hd, hline⟩ := List.forall_mem_cons.mp h
    rw [List.cons_append, linesBy, ih hline, hd]
    rfl

theorem linesBy_ne_nil (hne : cs ≠ []) : linesBy ends cs ≠ [] := by
  cases cs with
  | nil => exact absurd rfl hne
  | cons c cs =>
    rw [linesBy]
    split_ifs
    · exact List.cons_ne_nil _ _
    · cases linesBy ends cs <;> simp [consFirst]

theorem linesBy_append (h : ∀ c ∈ before.getLast?, ends c = true) (rest : List Char) :
    linesBy ends (before ++ rest) = linesBy ends before ++ linesBy ends rest ∧
      (linesBy ends before).length = before.countP ends := by
  induction before with
  | nil => exact ⟨rfl, rfl⟩
  | cons c before ih =>
    by_cases hempty : before = []
    · have hc : ends c = true := h c (by simp [hempty])
      simp [hempty, linesBy, hc]
    · obtain ⟨hsplit, hlength⟩ := ih fun d hd => h d (by rwa [List.getLast?_cons_of_ne_nil hempty])
      rw [List.cons_append, linesBy, linesBy, hsplit, List.countP_cons]
      cases hc : ends c with
      | true => simp [hlength]
      | false =>
        -- the character goes to the first of the lines before, and there is one
        have hsome : linesBy ends before ≠ [] := linesBy_ne_nil hempty
        obtain ⟨first, lines, hlines⟩ := List.exists_cons_of_ne_nil hsome
        rw [hlines] at hlength ⊢
        simpa [consFirst] using hlength

theorem exists_first_line (ends : Char → Bool) (cs : List Char) : (∀ c ∈ cs, ends c = false) ∨
    ∃ line c rest, cs = line ++ c :: rest ∧ (∀ c ∈ line, ends c = false) ∧ ends c = true := by
  induction cs with
  | nil => exact .inl fun _ hc => absurd hc List.not_mem_nil
  | cons c cs ih =>
    cases hc : ends c with
    | true => exact .inr ⟨[], c, cs, rfl, fun _ hd => absurd hd List.not_mem_nil, hc⟩
    | false =>
      rcases ih with hnone | ⟨line, d, rest, rfl, hline, hd⟩
      · exact .inl (List.forall_mem_cons.mpr ⟨hc, hnone⟩)
      · exact .inr ⟨c :: line, d, rest, rfl, List.forall_mem_cons.mpr ⟨hc, hline⟩, hd⟩

theorem IsLine.append {front : List Char} (h : IsLine ends rest before line after)
    (hfront : ∀ c ∈ front, ends c = false) (hc : ends c = true) :
    IsLine ends (front ++ c :: rest) (front ++ c :: before) line after ∧
      (front ++ c :: before).countP ends = before.countP ends + 1 := by
  constructor
  · refine ⟨by simp [h.whole], fun d hd => ?_, h.stops, h.unbroken, h.somewhere⟩
    cases hlast : before.getLast? with
    | none =>
      obtain rfl : c = d := by simpa [List.getLast?_cons, hlast] using hd
      exact hc
    | some e =>
      obtain rfl : e = d := by simpa [List.getLast?_cons, hlast] using hd
      exact h.starts e hlast
  · have hnone : front.countP ends = 0 := List.countP_eq_zero.mpr fun d hd => by simp [hfront d hd]
    rw [List.countP_append, hnone, Nat.zero_add, List.countP_cons_of_pos hc]

/-- **The lines in order are the lines of the text**, each with the number of those before it. -/
theorem getElem?_linesBy {i : ℕ} : (linesBy ends cs)[i]? = some line ↔
    ∃ before after, IsLine ends cs before line after ∧ before.countP ends = i := by
  constructor
  · intro h
    -- by the number: all lines but the first are those of the text after it
    induction i generalizing cs with
    | zero =>
      rcases exists_first_line ends cs with hnone | ⟨front, c, rest, rfl, hfront, hc⟩
      · have hne : cs ≠ [] := by
          rintro rfl
          cases h
        obtain rfl : cs = line := by simpa [linesBy_of_unbroken hne hnone] using h
        exact ⟨[], [], ⟨by simp, by simp, by simp, hnone, .inl hne⟩, rfl⟩
      · obtain rfl : front = line := by simpa [linesBy_append_cons hfront hc] using h
        exact ⟨[], c :: rest, ⟨rfl, by simp, by simpa using hc, hfront, .inr (by simp)⟩, rfl⟩
    | succ i ih =>
      rcases exists_first_line ends cs with hnone | ⟨front, c, rest, rfl, hfront, hc⟩
      · have hne : cs ≠ [] := by
          rintro rfl
          cases h
        simp [linesBy_of_unbroken hne hnone] at h
      · rw [linesBy_append_cons hfront hc, List.getElem?_cons_succ] at h
        obtain ⟨before, after, hline, rfl⟩ := ih h
        obtain ⟨hlater, hcount⟩ := hline.append hfront hc
        exact ⟨_, after, hlater, hcount⟩
  · rintro ⟨before, after, ⟨rfl, hstarts, hstops, hunbroken, hsome⟩, rfl⟩
    obtain ⟨hsplit, hlength⟩ := linesBy_append hstarts (line ++ after)
    rw [hsplit, ← hlength, List.getElem?_append_right le_rfl, Nat.sub_self]
    cases after with
    | nil =>
      rw [List.append_nil, linesBy_of_unbroken (by simpa using hsome) hunbroken]
      rfl
    | cons c after =>
      rw [linesBy_append_cons hunbroken (hstops c rfl)]
      rfl

theorem mem_linesBy : line ∈ linesBy ends cs ↔ ∃ before after, IsLine ends cs before line after := by
  rw [List.mem_iff_getElem?]
  simp only [getElem?_linesBy]
  constructor
  · rintro ⟨_, before, after, hline, -⟩
    exact ⟨before, after, hline⟩
  · rintro ⟨before, after, hline⟩
    exact ⟨_, before, after, hline, rfl⟩

theorem flatten_consFirst (c : Char) (lines : List (List Char)) :
    (consFirst c lines).flatten = c :: lines.flatten := by
  cases lines <;> simp [consFirst]

theorem mem_flatten_linesBy : c ∈ (linesBy ends cs).flatten ↔ c ∈ cs ∧ ends c = false := by
  induction cs with
  | nil => simp [linesBy]
  | cons d cs ih =>
    rw [linesBy, List.mem_cons]
    cases hd : ends d with
    | true =>
      rw [if_pos rfl, List.flatten_cons, List.nil_append, ih]
      refine and_congr_left fun hc => ⟨.inr, fun h => h.resolve_left ?_⟩
      rintro rfl
      simp [hd] at hc
    | false =>
      rw [if_neg Bool.false_ne_true, flatten_consFirst, List.mem_cons, ih]
      constructor
      · rintro (rfl | ⟨hmem, hc⟩)
        · exact ⟨.inl rfl, hd⟩
        · exact ⟨.inr hmem, hc⟩
      · rintro ⟨rfl | hmem, hc⟩
        · exact .inl rfl
        · exact .inr ⟨hmem, hc⟩

theorem exists_isLine_of_mem (hmem : c ∈ cs) (hc : ends c = false) :
    ∃ before line after, IsLine ends cs before line after ∧ c ∈ line := by
  obtain ⟨line, hline, hmem⟩ := List.mem_flatten.mp (mem_flatten_linesBy.mpr ⟨hmem, hc⟩)
  obtain ⟨before, after, h⟩ := mem_linesBy.mp hline
  exact ⟨before, line, after, h, hmem⟩

/-! ## What ends a line -/

/-- The lines depend only on which characters of the text end one. -/
theorem linesBy_congr (h : ∀ c ∈ cs, ends c = other c) : linesBy ends cs = linesBy other cs := by
  induction cs with
  | nil => rfl
  | cons c cs ih =>
    obtain ⟨hc, hcs⟩ := List.forall_mem_cons.mp h
    rw [linesBy, linesBy, hc, ih hcs]

/-- There are as many characters that end a line as line feeds exactly if these are line feeds. -/
theorem countP_eq_count_iff (hends : ends '\n' = true) :
    cs.count '\n' = cs.countP ends ↔ ∀ c ∈ cs, ends c = true → c = '\n' := by
  have hle (cs : List Char) : cs.count '\n' ≤ cs.countP ends :=
    List.countP_mono_left fun c _ hc => eq_of_beq hc ▸ hends
  induction cs with
  | nil => simp
  | cons c cs ih =>
    rw [List.forall_mem_cons]
    by_cases hc : c = '\n'
    · subst hc
      rw [List.count_cons_self, List.countP_cons_of_pos hends, Nat.add_right_cancel_iff]
      simpa using ih
    · have hcount := hle cs
      rw [List.count_cons_of_ne hc, List.countP_cons]
      cases hbreak : ends c with
      | true =>
        rw [if_pos rfl]
        exact iff_of_false (by omega) fun h => hc (h.1 rfl)
      | false => simpa using ih

end Lintel.Text
