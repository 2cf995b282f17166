import Lintel.Json.Reader
import Lintel.Proofs.Except
import Mathlib.Data.List.Nodup

/-!
# Plain values at the front of a text

A number, a text or a word at the front of a text is read the same whatever follows it: its last character
says that it has ended, and after a number the next one does (`EndsNumber`).

* `readNumber_append`: the scanners of a number each leave a text that goes on with another character;
* `readText_append`: a text with its escapes, read up to its closing quote;
* `readWord?_eq_some_iff`: the word that a text starts with;
* **`readPlain_append`**: plain values.
-/

namespace Lintel.Json

variable {cs rest more start start' done opening opening' : List Char} {value : Json} {negative : Bool}

/-! ## Numbers -/

/-- A number does not go on in this text: another character follows. -/
def EndsNumber (rest : List Char) : Prop :=
  ∃ c cs, rest = c :: cs ∧ c.isDigit = false ∧ c ≠ '.' ∧ c ≠ 'e' ∧ c ≠ 'E'

theorem EndsNumber.ne_nil (h : EndsNumber rest) : rest ≠ [] := by
  obtain ⟨c, cs, rfl, -⟩ := h
  exact List.cons_ne_nil c cs

theorem spanDigits_append (h : (spanDigits cs).2 ≠ []) :
    spanDigits (cs ++ more) = ((spanDigits cs).1, (spanDigits cs).2 ++ more) := by
  induction cs with
  | nil => exact absurd rfl h
  | cons c cs ih =>
    by_cases hc : c.isDigit = true
    · have hcs : (spanDigits cs).2 ≠ [] := by simpa [spanDigits, hc] using h
      have ih := ih hcs
      simp only [spanDigits, Prod.mk.injEq] at ih
      simp [spanDigits, hc, ih.1, ih.2]
    · simp [spanDigits, hc]

theorem fraction_append (hne : (fraction cs).2 ≠ []) (hpoint : (fraction cs).2.head? ≠ some '.') :
    fraction (cs ++ more) = ((fraction cs).1, (fraction cs).2 ++ more) := by
  cases cs with
  | nil => exact absurd rfl hne
  | cons c cs =>
    by_cases hc : c = '.'
    · subst hc
      by_cases hempty : (spanDigits cs).1.isEmpty = true
      · simp [fraction, hempty] at hpoint
      · have hcs : (spanDigits cs).2 ≠ [] := by simpa [fraction, hempty] using hne
        simp [fraction, hempty, spanDigits_append hcs]
    · simp [fraction, hc]

/-- The sign of an exponent, whether it is a minus, and the rest. -/
def exponentSign (cs : List Char) : Bool × List Char :=
  match cs with
  | '+' :: digits => (false, digits)
  | '-' :: digits => (true, digits)
  | _ => (false, cs)

theorem exponentSign_append (hne : cs ≠ []) :
    exponentSign (cs ++ more) = ((exponentSign cs).1, (exponentSign cs).2 ++ more) := by
  obtain ⟨c, cs, rfl⟩ := List.exists_cons_of_ne_nil hne
  by_cases hplus : c = '+'
  · subst hplus
    rfl
  · by_cases hminus : c = '-'
    · subst hminus
      rfl
    · simp [exponentSign, hplus, hminus]

theorem exponent?_cons (e : Char) (cs : List Char) : exponent? (e :: cs) =
    if e == 'e' || e == 'E' then
      let places := spanDigits (exponentSign cs).2
      if places.1.isEmpty then none
      else
        let size : Int := digitsValue places.1
        some (if (exponentSign cs).1 then -size else size, places.2)
    else none := rfl

theorem exponent?_append_of_some {size : Int} (h : exponent? cs = some (size, rest)) (hne : rest ≠ []) :
    exponent? (cs ++ more) = some (size, rest ++ more) := by
  cases cs with
  | nil => cases h
  | cons e cs =>
    by_cases he : (e == 'e' || e == 'E') = true
    · rw [exponent?_cons, if_pos he] at h
      by_cases hempty : (spanDigits (exponentSign cs).2).1.isEmpty = true
      · simp [hempty] at h
      · have hcs : cs ≠ [] := by
          rintro rfl
          exact hempty rfl
        rw [if_neg hempty, Option.some.injEq, Prod.mk.injEq] at h
        have hdigits : (spanDigits (exponentSign cs).2).2 ≠ [] := h.2 ▸ hne
        rw [List.cons_append, exponent?_cons, if_pos he, exponentSign_append hcs]
        simp only [spanDigits_append hdigits]
        rw [if_neg hempty, h.1, h.2]
    · rw [exponent?_cons, if_neg he] at h
      cases h

/-- What is left over after an exponent, if there is one. -/
def afterExponent (cs : List Char) : List Char := ((exponent? cs).map Prod.snd).getD cs

theorem exponent?_append (hends : EndsNumber (afterExponent cs)) :
    exponent? (cs ++ more) = (exponent? cs).map fun found => (found.1, found.2 ++ more) := by
  unfold afterExponent at hends
  cases h : exponent? cs with
  | none =>
    rw [h] at hends
    obtain ⟨c, cs, rfl, -, -, hsmall, hlarge⟩ := hends
    simp [exponent?_cons, hsmall, hlarge]
  | some found =>
    rw [h] at hends
    exact exponent?_append_of_some h hends.ne_nil

theorem head?_ne_of_endsNumber (hends : EndsNumber (afterExponent cs)) : cs ≠ [] ∧ cs.head? ≠ some '.' := by
  cases cs with
  | nil => exact absurd rfl hends.ne_nil
  | cons c cs =>
    refine ⟨List.cons_ne_nil c cs, fun hhead => ?_⟩
    obtain rfl : c = '.' := Option.some.inj hhead
    obtain ⟨c, tail, hcons, -, hpoint, -⟩ := hends
    exact hpoint (List.cons.inj hcons).1.symm

/-- The digits of a number before a point, and the rest. -/
def wholeDigits (cs : List Char) : List Char × List Char :=
  match cs with
  | '0' :: rest => (['0'], rest)
  | _ => spanDigits cs

theorem wholeDigits_append (hne : (wholeDigits cs).2 ≠ []) :
    wholeDigits (cs ++ more) = ((wholeDigits cs).1, (wholeDigits cs).2 ++ more) := by
  cases cs with
  | nil => exact absurd rfl hne
  | cons c cs =>
    by_cases hc : c = '0'
    · subst hc
      rfl
    · have hdigits : ∀ cs, wholeDigits (c :: cs) = spanDigits (c :: cs) := fun cs => by
        simp [wholeDigits, hc]
      rw [hdigits] at hne ⊢
      rw [List.cons_append, hdigits, ← List.cons_append, spanDigits_append hne]

/-- The number of the digits before and after the point and of the exponent, and the rest. -/
def numberFrom (negative : Bool) (whole places : List Char) (found : Option (Int × List Char))
    (left : List Char) : Except Stuck (Json × List Char) :=
  match found, places with
  | none, [] =>
    if maxDigits < whole.length then .error (.longInteger whole.length)
    else .ok (.int (if negative then -(digitsValue whole : Int) else digitsValue whole), left)
  | found, _ =>
    .ok (.float (Number.Binary64.ofDecimal negative (digitsValue (whole ++ places))
      ((found.getD (0, left)).1 - places.length)), (found.getD (0, left)).2)

theorem readNumber_eq (start : List Char) (negative : Bool) (cs : List Char) :
    readNumber start negative cs =
      let whole := wholeDigits cs
      let places := fraction whole.2
      if whole.1.isEmpty then .error (.malformed .value start)
      else numberFrom negative whole.1 places.1 (exponent? places.2) places.2 := rfl

theorem numberFrom_append {whole places left : List Char} {found : Option (Int × List Char)}
    (h : numberFrom negative whole places found left = .ok (value, rest)) (more : List Char) :
    rest = (found.map Prod.snd).getD left ∧
      numberFrom negative whole places (found.map fun found => (found.1, found.2 ++ more)) (left ++ more) =
        .ok (value, rest ++ more) := by
  cases found with
  | some found =>
    obtain ⟨rfl, rfl⟩ := Prod.mk.inj (Except.ok.inj h)
    exact ⟨rfl, rfl⟩
  | none =>
    cases places with
    | cons c places =>
      obtain ⟨rfl, rfl⟩ := Prod.mk.inj (Except.ok.inj h)
      exact ⟨rfl, rfl⟩
    | nil =>
      unfold numberFrom at h ⊢
      dsimp only [Option.map_none] at h ⊢
      by_cases hlong : maxDigits < whole.length
      · rw [if_pos hlong] at h
        cases h
      · rw [if_neg hlong] at h ⊢
        obtain ⟨rfl, rfl⟩ := Prod.mk.inj (Except.ok.inj h)
        exact ⟨rfl, rfl⟩

/-- A number is read the same whatever follows the character after it. -/
theorem readNumber_append (h : readNumber start negative cs = .ok (value, rest)) (hends : EndsNumber rest) :
    readNumber start' negative (cs ++ more) = .ok (value, rest ++ more) := by
  rw [readNumber_eq] at h
  dsimp only at h
  by_cases hempty : (wholeDigits cs).1.isEmpty = true
  · rw [if_pos hempty] at h
    cases h
  · rw [if_neg hempty] at h
    obtain ⟨hrest, happend⟩ := numberFrom_append h more
    have hexponent : EndsNumber (afterExponent (fraction (wholeDigits cs).2).2) := by
      rw [afterExponent, ← hrest]
      exact hends
    obtain ⟨hleft, hpoint⟩ := head?_ne_of_endsNumber hexponent
    have hwhole : (wholeDigits cs).2 ≠ [] := by
      intro hnil
      rw [hnil] at hleft
      exact hleft rfl
    rw [readNumber_eq, wholeDigits_append hwhole]
    simp only [fraction_append hleft hpoint, exponent?_append hexponent, hempty]
    exact happend

/-! ## Texts -/

/-- The characters after an escape are enough to be read on: there are some, and what may be the escape of a
second half is whole. -/
structure GoesOn (rest : List Char) : Prop where
  ne_nil : rest ≠ []
  ne_backslash : rest ≠ ['\\']
  long : ∀ more, rest = '\\' :: 'u' :: more → 4 < more.length

theorem lt_length_of_codeUnit? {unit : Nat} (h : codeUnit? cs = some (unit, rest)) :
    4 < cs.length ∧ rest ≠ [] := by
  unfold codeUnit? at h
  split at h
  · simp only [Option.bind_eq_bind, Option.bind_eq_some_iff] at h
    obtain ⟨_, -, _, -, _, -, _, -, h⟩ := h
    cases h
    exact ⟨by simp, List.cons_ne_nil _ _⟩
  · cases h

theorem codeUnit?_append {unit : Nat} (h : codeUnit? cs = some (unit, rest)) :
    codeUnit? (cs ++ more) = some (unit, rest ++ more) := by
  unfold codeUnit? at h
  split at h
  · simp only [Option.bind_eq_bind, Option.bind_eq_some_iff] at h
    obtain ⟨a, ha, b, hb, c, hc, d, hd, h⟩ := h
    cases h
    simp [codeUnit?, ha, hb, hc, hd]
  · cases h

theorem goesOn_of_readText {fuel : Nat} {found : String × List Char}
    (h : readText opening fuel done cs = .ok found) : GoesOn cs := by
  cases fuel with
  | zero => cases h
  | succ fuel =>
    refine ⟨?_, ?_, ?_⟩
    · rintro rfl
      cases h
    · rintro rfl
      cases h
    · rintro more rfl
      rw [readText] at h
      cases hunit : codeUnit? more with
      | none => simp [hunit] at h
      | some found => exact (lt_length_of_codeUnit? hunit).1

theorem escapedChar_of_ne {unit : Nat} (h : ∀ tail, cs ≠ '\\' :: 'u' :: tail) :
    escapedChar unit cs = .ok (if isHigh unit || isLow unit then '\uFFFD' else Char.ofNat unit, cs) := by
  unfold escapedChar
  split
  · next tail => exact absurd rfl (h tail)
  · rfl

theorem escapedChar_append {unit : Nat} {c : Char} (h : escapedChar unit cs = .ok (c, rest))
    (hgoes : GoesOn rest) : escapedChar unit (cs ++ more) = .ok (c, rest ++ more) := by
  by_cases hpair : ∃ tail, cs = '\\' :: 'u' :: tail
  · obtain ⟨tail, rfl⟩ := hpair
    simp only [escapedChar, List.cons_append] at h ⊢
    by_cases hhigh : (isHigh unit && 4 < tail.length) = true
    · have hlong : (isHigh unit && 4 < (tail ++ more).length) = true := by
        simp only [Bool.and_eq_true, decide_eq_true_eq, List.length_append] at hhigh ⊢
        exact ⟨hhigh.1, by omega⟩
      rw [if_pos hhigh] at h
      rw [if_pos hlong]
      cases hunit : codeUnit? tail with
      | none => simp [hunit] at h
      | some found =>
        obtain ⟨second, after⟩ := found
        simp only [hunit, codeUnit?_append hunit] at h ⊢
        split_ifs at h ⊢ with hlow
        · obtain ⟨rfl, rfl⟩ := Prod.mk.inj (Except.ok.inj h)
          rfl
        · obtain ⟨rfl, rfl⟩ := Prod.mk.inj (Except.ok.inj h)
          rfl
    · rw [if_neg hhigh] at h
      obtain ⟨rfl, rfl⟩ := Prod.mk.inj (Except.ok.inj h)
      -- the unit is no first half, for there is enough text for a second one
      have hshort := hgoes.long tail rfl
      have hunit : isHigh unit = false := by simpa [hshort] using hhigh
      simp [hunit]
  · have hne : ∀ tail, cs ≠ '\\' :: 'u' :: tail := fun tail htail => hpair ⟨tail, htail⟩
    rw [escapedChar_of_ne hne] at h
    obtain ⟨rfl, rfl⟩ := Prod.mk.inj (Except.ok.inj h)
    refine escapedChar_of_ne fun tail htail => ?_
    rcases cs with _ | ⟨first, _ | ⟨second, cs⟩⟩
    · exact hgoes.ne_nil rfl
    · obtain rfl : first = '\\' := (List.cons.inj htail).1
      exact hgoes.ne_backslash rfl
    · obtain ⟨rfl, rfl, -⟩ : first = '\\' ∧ second = 'u' ∧ cs ++ more = tail := by simpa using htail
      exact hne cs rfl

/-- **A text is read the same whatever follows its closing quote.** -/
theorem readText_append {fuel fuel' : Nat} {s : String} (hfuel : fuel ≤ fuel')
    (h : readText opening fuel done cs = .ok (s, rest)) :
    readText opening' fuel' done (cs ++ more) = .ok (s, rest ++ more) := by
  induction fuel generalizing fuel' done cs with
  | zero => cases h
  | succ fuel ih =>
    obtain ⟨fuel', rfl⟩ : ∃ n, fuel' = n + 1 := ⟨fuel' - 1, by omega⟩
    have hfuel' : fuel ≤ fuel' := by omega
    unfold readText at h ⊢
    split at h
    · cases h
    · obtain ⟨rfl, rfl⟩ := Prod.mk.inj (Except.ok.inj h)
      rfl
    · cases h
    · next tail =>
      simp only [List.cons_append]
      cases hunit : codeUnit? tail with
      | none => simp [hunit] at h
      | some found =>
        obtain ⟨unit, after⟩ := found
        simp only [hunit, codeUnit?_append hunit] at h ⊢
        obtain ⟨⟨c, left⟩, hchar, hleft⟩ := bind_eq_ok.mp h
        rw [escapedChar_append hchar (goesOn_of_readText hleft), ok_bind]
        exact ih hfuel' hleft
    · next e tail hunit =>
      cases hescape : shortEscape? e with
      | none => simp [hescape] at h
      | some c =>
        simp only [hescape] at h
        simpa [hunit, hescape] using ih hfuel' h
    · next c tail hquote hlast hunit hescape =>
      have hbackslash : c ≠ '\\' := by
        intro hc
        cases tail with
        | nil => exact hlast hc rfl
        | cons e tail => exact hescape e tail hc rfl
      by_cases hcontrol : c.toNat < 32
      · rw [if_pos hcontrol] at h
        cases h
      · rw [if_neg hcontrol] at h
        simpa [hquote, hbackslash, hcontrol] using ih hfuel' h

/-! ## Words and plain values -/

theorem after?_eq_some_iff {front : List Char} : after? front cs = some rest ↔ cs = front ++ rest := by
  induction front generalizing cs with
  | nil => simp [after?]
  | cons w front ih =>
    cases cs with
    | nil => simp [after?]
    | cons c cs =>
      rw [after?]
      split_ifs with hw
      · simp [ih, hw]
      · simp [eq_comm, hw]

theorem eq_of_head?_eq {a b : String × Json} (ha : a ∈ words) (hb : b ∈ words)
    (h : a.1.toList.head? = b.1.toList.head?) : a = b := by
  have hnames : ∀ a ∈ words.map (·.1), ∀ b ∈ words.map (·.1), a.toList.head? = b.toList.head? → a = b := by
    decide
  have hnodup : (words.map (·.1)).Nodup := by decide
  exact List.inj_on_of_nodup_map hnodup ha hb
    (hnames _ (List.mem_map_of_mem ha) _ (List.mem_map_of_mem hb) h)

/-- **The word at the front** is the one that the text starts with. -/
theorem readWord?_eq_some_iff : readWord? cs = some (value, rest) ↔
    ∃ word, (word, value) ∈ words ∧ cs = word.toList ++ rest := by
  have hfound : ∀ value rest, readWord? cs = some (value, rest) →
      ∃ word, (word, value) ∈ words ∧ cs = word.toList ++ rest := by
    intro value rest h
    obtain ⟨⟨word, other⟩, hword, hrest⟩ := List.exists_of_findSome?_eq_some h
    obtain ⟨left, hleft, hpair⟩ := Option.map_eq_some_iff.mp hrest
    obtain ⟨rfl, rfl⟩ := Prod.mk.inj hpair
    exact ⟨word, hword, after?_eq_some_iff.mp hleft⟩
  refine ⟨hfound value rest, ?_⟩
  rintro ⟨word, hword, rfl⟩
  have hsome : (readWord? (word.toList ++ rest)).isSome = true := by
    have hafter : after? word.toList (word.toList ++ rest) = some rest := after?_eq_some_iff.mpr rfl
    unfold readWord?
    rw [List.findSome?_isSome_iff]
    exact ⟨_, hword, by simp [hafter]⟩
  obtain ⟨⟨other, left⟩, hread⟩ := Option.isSome_iff_exists.mp hsome
  obtain ⟨word', hword', hsplit⟩ := hfound other left hread
  have hne : ∀ word ∈ words.map (·.1), word.toList ≠ [] := by decide
  have hhead : word.toList.head? = word'.toList.head? := by
    have hboth := congrArg List.head? hsplit
    rwa [List.head?_append_of_ne_nil _ (hne _ (List.mem_map_of_mem hword)),
      List.head?_append_of_ne_nil _ (hne _ (List.mem_map_of_mem hword'))] at hboth
  obtain ⟨rfl, rfl⟩ := Prod.mk.inj (eq_of_head?_eq hword hword' hhead)
  rw [hread, List.append_cancel_left hsplit]

theorem readWord?_append (h : readWord? cs = some (value, rest)) :
    readWord? (cs ++ more) = some (value, rest ++ more) := by
  obtain ⟨word, hword, rfl⟩ := readWord?_eq_some_iff.mp h
  exact readWord?_eq_some_iff.mpr ⟨word, hword, List.append_assoc _ _ _⟩

theorem readWord?_eq_none (h : ∀ word ∈ words.map (·.1), ∀ rest, cs ≠ word.toList ++ rest) :
    readWord? cs = none := by
  cases hread : readWord? cs with
  | none => rfl
  | some found =>
    obtain ⟨word, hword, hsplit⟩ := readWord?_eq_some_iff.mp hread
    exact absurd hsplit (h word (List.mem_map_of_mem hword) _)

theorem readWord?_quote (cs : List Char) : readWord? ('"' :: cs) = none := by
  have hheads : ∀ word ∈ words.map (·.1), word.toList ≠ [] ∧ word.toList.head? ≠ some '"' := by decide
  refine readWord?_eq_none fun word hword rest hsplit => ?_
  obtain ⟨hne, hhead⟩ := hheads word hword
  have hquote := congrArg List.head? hsplit
  rw [List.head?_append_of_ne_nil _ hne] at hquote
  exact hhead hquote.symm

theorem readWord?_of_isDigit {c : Char} (hmem : c ∈ cs.take 2) (hc : c.isDigit = true) :
    readWord? cs = none := by
  have hletters : ∀ word ∈ words.map (·.1), 2 ≤ word.toList.length ∧
      (word.toList.take 2).all (!·.isDigit) = true := by decide
  refine readWord?_eq_none fun word hword rest hsplit => ?_
  obtain ⟨hlength, hnone⟩ := hletters word hword
  rw [hsplit, List.take_append_of_le_length hlength] at hmem
  have hletter := List.all_eq_true.mp hnone c hmem
  rw [hc] at hletter
  cases hletter

theorem isDigit_of_readNumber {found : Json × List Char} (h : readNumber start negative cs = .ok found) :
    ∃ c tail, cs = c :: tail ∧ c.isDigit = true := by
  rw [readNumber_eq] at h
  cases cs with
  | nil => cases h
  | cons c tail =>
    refine ⟨c, tail, rfl, ?_⟩
    by_contra hc
    have hzero : c ≠ '0' := by
      rintro rfl
      exact hc rfl
    have hempty : (wholeDigits (c :: tail)).1 = [] := by simp [wholeDigits, hzero, spanDigits, hc]
    simp [hempty] at h

/-- **A plain value is read the same whatever follows it**; after a number, the next character says that it
has ended. -/
theorem readPlain_append (h : readPlain cs = .ok (value, rest)) (hends : EndsNumber rest) :
    readPlain (cs ++ more) = .ok (value, rest ++ more) := by
  unfold readPlain at h ⊢
  cases hword : readWord? cs with
  | some found =>
    simp only [hword, Except.ok.injEq] at h
    subst h
    rw [readWord?_append hword]
  | none =>
    simp only [hword] at h
    split at h
    · next tail =>
      rw [List.cons_append, readWord?_quote]
      obtain ⟨⟨s, left⟩, htext, hvalue⟩ := map_eq_ok.mp h
      obtain ⟨rfl, rfl⟩ := Prod.mk.inj hvalue
      have hfuel : tail.length + 1 ≤ (tail ++ more).length + 1 := by simp
      have happend : readText ('"' :: (tail ++ more)) ((tail ++ more).length + 1) [] (tail ++ more) =
          .ok (s, left ++ more) := readText_append hfuel htext
      simp only [happend, Except.map]
    · next tail =>
      obtain ⟨c, digits, rfl, hc⟩ := isDigit_of_readNumber h
      have hnone : readWord? ('-' :: c :: (digits ++ more)) = none := readWord?_of_isDigit (by simp) hc
      rw [List.cons_append, List.cons_append, hnone]
      exact readNumber_append h hends
    · next hquote hminus =>
      obtain ⟨c, digits, rfl, hc⟩ := isDigit_of_readNumber h
      have hnone : readWord? (c :: (digits ++ more)) = none := readWord?_of_isDigit (by simp) hc
      have hquote' : c ≠ '"' := fun hq => hquote digits (hq ▸ rfl)
      have hminus' : c ≠ '-' := fun hm => hminus digits (hm ▸ rfl)
      rw [List.cons_append, hnone]
      have happended : readNumber (c :: (digits ++ more)) false (c :: digits ++ more) =
          .ok (value, rest ++ more) := readNumber_append h hends
      simpa [hquote', hminus'] using happended

end Lintel.Json
