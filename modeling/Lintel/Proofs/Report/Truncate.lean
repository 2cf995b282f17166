import Lintel.Proofs.Except
import Lintel.Proofs.Number.Order
import Lintel.Proofs.Report.Marker
import Lintel.Report.Lines
import Mathlib.Data.List.DropRight
import Mathlib.Data.List.Infix

/-!
# Bounded texts keep whole lines

A text that is too long is cut between lines at both sides of the marker, and nothing that fits is left
out.

* `LongestHead`, `LongestTail`: the most whole lines at the start and at the end that fit into a room;
  `longestHead_wholeLinesAtStart`, `longestTail_afterFirstLine`: the two cuts keep them;
* `cut_of_fits`, `cut_of_no_room`, `cut_of_room`: the three ways of a cut;
* `shareOf_mem`, `shareOf_mem_of_isBinary`: a ratio between zero and one gives a share of the room;
* `exists_cut`, `exists_truncate`: a cut text fits into the limit;
* **`cut_bounded`**: a cut fits, changes nothing that fits already, and cannot be repeated;
* **`cut_whole_lines`**: what a cut keeps, what it leaves out, and what the marker says of it;
* **`length_bounded_le`**: a bounded report fits into its limit.
-/

namespace Lintel.Report

open Number (Binary64)
open Number.Binary64

/-! ## Whole lines -/

/-- The most that a text has of whole lines at its start in some room. -/
structure LongestHead (text : List Char) (room : ℤ) (head : List Char) : Prop where
  atStart : head <+: text
  fits : (head.length : ℤ) ≤ room
  whole : head = [] ∨ head.getLast? = some '\n'
  longest : ∀ other, other <+: text → (other.length : ℤ) ≤ room →
    (other = [] ∨ other.getLast? = some '\n') → other <+: head

/-- The most that a text has of whole lines at its end in some room: they come after a line feed. -/
structure LongestTail (text : List Char) (room : ℤ) (tail : List Char) : Prop where
  atEnd : tail <:+ text
  fits : (tail.length : ℤ) ≤ room
  whole : tail = [] ∨ '\n' :: tail <:+ text
  longest : ∀ other, other <:+ text → (other.length : ℤ) ≤ room →
    (other = [] ∨ '\n' :: other <:+ text) → other <:+ tail

theorem wholeLinesAtStart_eq (cs : List Char) :
    wholeLinesAtStart cs = cs.rdropWhile (· != '\n') := rfl

theorem prefix_wholeLinesAtStart {other cs : List Char} (h : other <+: cs)
    (hwhole : other = [] ∨ other.getLast? = some '\n') : other <+: wholeLinesAtStart cs := by
  rw [wholeLinesAtStart_eq]
  induction cs using List.reverseRecOn with
  | nil => simpa using h
  | append_singleton cs c ih =>
    rw [List.rdropWhile_concat]
    split_ifs with hc
    · -- the last character is none of the piece, which would end with it
      rcases List.prefix_concat_iff.mp h with rfl | hfront
      · rcases hwhole with hnil | hlast
        · exact absurd hnil (by simp)
        · rw [List.getLast?_concat, Option.some.injEq] at hlast
          simp [hlast] at hc
      · exact ih hfront
    · exact h

theorem longestHead_wholeLinesAtStart (text : List Char) {room : ℤ} (hroom : 0 ≤ room) :
    LongestHead text room (wholeLinesAtStart (text.take room.toNat)) := by
  have hfront : wholeLinesAtStart (text.take room.toNat) <+: text.take room.toNat := by
    rw [wholeLinesAtStart_eq]
    exact List.rdropWhile_prefix _ _
  refine ⟨hfront.trans (List.take_prefix _ _), ?_, ?_, ?_⟩
  · have hlength := hfront.length_le
    rw [List.length_take] at hlength
    omega
  · rcases List.eq_nil_or_concat (wholeLinesAtStart (text.take room.toNat)) with hnil | hcons
    · exact .inl hnil
    · right
      obtain ⟨front, last, hlast⟩ := hcons
      have hne : (text.take room.toNat).rdropWhile (· != '\n') ≠ [] := by
        rw [← wholeLinesAtStart_eq, hlast]
        simp
      have hnot := List.rdropWhile_last_not (· != '\n') (text.take room.toNat) hne
      rw [wholeLinesAtStart_eq, List.getLast?_eq_some_getLast hne]
      simpa using hnot
  · intro other hother hfits hwhole
    refine prefix_wholeLinesAtStart ?_ hwhole
    rw [List.prefix_take_iff]
    exact ⟨hother, by omega⟩

theorem suffix_afterFirstLine {other cs : List Char} (h : '\n' :: other <:+ cs) :
    other <:+ afterFirstLine cs := by
  rw [afterFirstLine]
  induction cs with
  | nil => simp at h
  | cons c cs ih =>
    rw [List.dropWhile_cons]
    split_ifs with hc
    · rcases List.suffix_cons_iff.mp h with heq | hrest
      · cases heq
        simp at hc
      · exact ih hrest
    · rw [List.drop_one, List.tail_cons]
      rcases List.suffix_cons_iff.mp h with heq | hrest
      · cases heq
        exact List.suffix_rfl
      · exact (List.suffix_cons _ _).trans hrest

theorem afterFirstLine_eq (cs : List Char) :
    afterFirstLine cs = [] ∨ '\n' :: afterFirstLine cs <:+ cs := by
  rw [afterFirstLine]
  cases hrest : cs.dropWhile (· != '\n') with
  | nil => exact .inl rfl
  | cons c rest =>
    right
    have hc : c = '\n' := by
      have hnot := List.head?_dropWhile_not (· != '\n') cs
      rw [hrest] at hnot
      simpa using hnot
    rw [List.drop_one, List.tail_cons, ← hc, ← hrest]
    exact List.dropWhile_suffix _

theorem longestTail_afterFirstLine (text : List Char) {room : ℤ} (hroom : 0 ≤ room)
    (hshort : room < text.length) :
    LongestTail text room (afterFirstLine (text.drop (text.length - room.toNat - 1))) := by
  set cs := text.drop (text.length - room.toNat - 1) with hcs
  have hlength : (cs.length : ℤ) = room + 1 := by
    rw [hcs, List.length_drop]
    omega
  have hcut : cs <:+ text := List.drop_suffix _ _
  have hline := afterFirstLine_eq cs
  refine ⟨?_, ?_, hline.imp_right fun h => h.trans hcut, ?_⟩
  · rcases hline with hnil | hline
    · rw [hnil]
      exact List.nil_suffix
    · exact (List.suffix_cons _ _).trans (hline.trans hcut)
  · rcases hline with hnil | hline
    · rw [hnil]
      simpa using hroom
    · have := hline.length_le
      rw [List.length_cons] at this
      omega
  · intro other hother hfits hwhole
    rcases hwhole with rfl | hwhole
    · exact List.nil_suffix
    · refine suffix_afterFirstLine ?_
      refine List.suffix_of_suffix_length_le hwhole hcut ?_
      rw [List.length_cons]
      omega

/-! ## The cuts of a text -/

theorem afterFirstLine_cons (c : Char) (cs : List Char) :
    afterFirstLine (c :: cs) = if c = '\n' then cs else afterFirstLine cs := by
  by_cases hc : c = '\n' <;> simp [afterFirstLine, hc]

theorem wholeLinesAtEnd_eq {text : List Char} {count : ℤ} (hnonneg : 0 ≤ count)
    (hshort : count < text.length) :
    wholeLinesAtEnd text count =
      .ok (afterFirstLine (text.drop (text.length - count.toNat - 1))) := by
  obtain ⟨n, rfl⟩ := Int.eq_ofNat_of_zero_le hnonneg
  obtain ⟨start, hstart⟩ : ∃ start, text.length = start + 1 + n :=
    ⟨text.length - n - 1, by omega⟩
  have hbefore : start < text.length := by omega
  have hdrop : text.drop (text.length - (n : ℤ).toNat - 1) = text[start] :: text.drop (start + 1) := by
    rw [← List.drop_eq_getElem_cons hbefore]
    congr 1
    omega
  have hkept : startingAt text (text.length - (n : ℤ)) = text.drop (start + 1) := by
    rw [startingAt, placeOf, if_neg (by omega)]
    congr 1
    omega
  have hchar : charAt? text (text.length - (n : ℤ) - 1) = some text[start] := by
    rw [charAt?, if_neg (by omega), placeOf, if_neg (by omega),
      show (text.length - (n : ℤ) - 1).toNat = start by omega, List.getElem?_eq_getElem hbefore]
  rw [hdrop, afterFirstLine_cons, wholeLinesAtEnd]
  rcases Nat.eq_zero_or_pos n with rfl | hn
  · have hnone : text.drop (start + 1) = [] := List.drop_eq_nil_of_le (by omega)
    simp [hnone, afterFirstLine]
  · have hsome : (text.drop (start + 1)).isEmpty = false := by
      rw [List.isEmpty_eq_false_iff, ← List.length_pos_iff, List.length_drop]
      omega
    have hcount : ((n : ℤ) == 0) = false := by simpa using hn.ne'
    simp only [hcount, hkept, hchar, hsome, Bool.false_eq_true, if_false, beq_iff_eq]

/-- The room for lines once the longest marker and a line feed are set aside. -/
def roomFor (text : List Char) (limit : ℤ) : ℤ :=
  limit - ((omissionMarker text.length).toList.length + 1)

section Cut

variable {share : ℤ → Except Fault ℤ} {text : List Char} {limit : ℤ}

theorem cut_eq :
    cut share limit text =
      if text.length ≤ limit then .ok text
      else if roomFor text limit ≤ 0 then .ok (upTo (omissionMarker text.length).toList limit)
      else do
        let tailRoom ← share (roomFor text limit)
        let tail ← wholeLinesAtEnd text tailRoom
        return assemble text (wholeLinesAtStart (upTo text (roomFor text limit - tailRoom))) tail :=
  rfl

theorem cut_of_fits (h : text.length ≤ limit) : cut share limit text = .ok text := by
  rw [cut_eq, if_pos h]

theorem cut_of_no_room (h : limit < text.length) (hroom : roomFor text limit ≤ 0) :
    cut share limit text = .ok (upTo (omissionMarker text.length).toList limit) := by
  rw [cut_eq, if_neg (not_le.mpr h), if_pos hroom]

theorem cut_of_room {tailRoom : ℤ} (h : limit < text.length) (hroom : 0 < roomFor text limit)
    (hshare : share (roomFor text limit) = .ok tailRoom) (hnonneg : 0 ≤ tailRoom)
    (hle : tailRoom ≤ roomFor text limit) :
    cut share limit text =
      .ok (assemble text
        (wholeLinesAtStart (text.take (roomFor text limit - tailRoom).toNat))
        (afterFirstLine (text.drop (text.length - tailRoom.toNat - 1)))) := by
  have hshort : tailRoom < text.length := by
    rw [roomFor] at hle
    omega
  have hupTo : upTo text (roomFor text limit - tailRoom) =
      text.take (roomFor text limit - tailRoom).toNat := by
    rw [upTo, placeOf, if_neg (by omega)]
  rw [cut_eq, if_neg (not_le.mpr h), if_neg (not_le.mpr hroom), hshare, ok_bind,
    wholeLinesAtEnd_eq hnonneg hshort, ok_bind, hupTo]
  rfl

theorem length_head_add_tail {head tail : List Char} {tailRoom : ℤ}
    (hhead : LongestHead text (roomFor text limit - tailRoom) head)
    (htail : LongestTail text tailRoom tail) :
    (head.length + tail.length : ℤ) + (omissionMarker text.length).toList.length + 1 ≤ limit := by
  have := hhead.fits
  have := htail.fits
  rw [roomFor] at *
  omega

theorem length_assemble_le (text head tail : List Char) :
    (assemble text head tail).length ≤
      head.length + (omissionMarker text.length).toList.length + 1 + tail.length := by
  have hmarker : (omissionMarker (text.length - head.length - tail.length)).toList.length ≤
      (omissionMarker text.length).toList.length := by
    rw [String.length_toList, String.length_toList]
    exact length_omissionMarker_mono (by omega)
  rw [assemble]
  split_ifs <;> simp only [List.length_append, List.length_cons] <;> omega

end Cut

/-! ## Shares of the room -/

theorem shareOf_of_written {ratio : Binary64} {n : ℕ} {v : ℚ} (hn : n ≤ 2 ^ 1023)
    (hwritten : Written v ((ofInt n).mul ratio)) (hnonneg : 0 ≤ v) (hle : v ≤ n) :
    ∃ share, shareOf ratio n = .ok share ∧ 0 ≤ share ∧ share ≤ n := by
  rw [shareOf]
  generalize (ofInt n).mul ratio = product at *
  cases hwritten with
  | infinite large => exact absurd (large.trans hle) (not_le.mpr (lt_tooLarge_of_le hn))
  | finite normal eq small =>
    rw [floor?_finite, ← eq]
    refine ⟨⌊v⌋, rfl, Int.floor_nonneg.mpr hnonneg, ?_⟩
    exact_mod_cast (Int.floor_le v).trans hle

/-- The share of a ratio between zero and one is a part of the room. -/
theorem shareOf_mem {m : ℕ} {e room : ℤ} (hratio : (m : ℚ) * 2 ^ e ≤ 1) (hpos : 0 < room)
    (hroom : room ≤ 2 ^ 53) :
    ∃ share, shareOf (.finite false m e) room = .ok share ∧ 0 ≤ share ∧ share ≤ room := by
  obtain ⟨n, rfl⟩ := Int.eq_ofNat_of_zero_le hpos.le
  have hn : n ≤ 2 ^ 53 := by exact_mod_cast hroom
  have hlarge : n ≤ 2 ^ 1023 := by
    calc n ≤ 2 ^ 53 := hn
      _ ≤ 2 ^ 1023 := pow_le_pow_right₀ one_le_two (by decide)
  have hgrid : OnGrid (n : ℚ) := ⟨n, 0, hn, by norm_num, by simp⟩
  have hzero : OnGrid 0 := ⟨0, 0, by norm_num, by norm_num, by simp⟩
  -- the room itself is a binary number
  obtain ⟨k, f, hofInt, -, hx⟩ := ofInt_isNearest hlarge
  obtain ⟨v, hv, hwritten⟩ := mul_isNearest k m f e
  rw [hx.eq_of_onGrid hgrid] at hv
  rw [← hofInt] at hwritten
  have hlow : 0 ≤ v := hv.ge_of_ge hzero (mul_nonneg (Nat.cast_nonneg n) (value_nonneg m e))
  have hhigh : v ≤ n := hv.le_of_le hgrid (mul_le_of_le_one_right (Nat.cast_nonneg n) hratio)
  exact shareOf_of_written hlarge hwritten hlow hhigh

theorem product_bounds {n m k : ℕ} {e f : ℤ} {v : ℚ} (hpos : 0 < n) (hnormal : Normal k f)
    (hx : IsNearest (n : ℚ) (k * 2 ^ f)) (hv : IsNearest (k * 2 ^ f * (m * 2 ^ e)) v)
    (hbinary : OnGrid (m * 2 ^ e)) (hlt : (m : ℚ) * 2 ^ e < 1) : 0 ≤ v ∧ v ≤ n := by
  have hgrid : ∀ j : ℕ, j ≤ 2 ^ 53 → OnGrid j := fun j hj => ⟨j, 0, hj, by norm_num, by simp⟩
  have hlarge : (1 : ℚ) ≤ k * 2 ^ f := by
    have hone : (1 : ℚ) ≤ n := by exact_mod_cast hpos
    exact_mod_cast hx.ge_of_ge (hgrid 1 (by norm_num)) (by exact_mod_cast hone)
  have hlow : 0 ≤ v := by
    have hproduct := mul_nonneg (value_nonneg k f) (value_nonneg m e)
    exact_mod_cast hv.ge_of_ge (hgrid 0 (by norm_num)) (by exact_mod_cast hproduct)
  have hless := hv.lt_of_mul hnormal hlarge hbinary hlt
  -- a number of the grid above the room is not below the one that is nearest to it
  have hhigh : v ≤ n := by
    by_contra hnot
    have hnear := hx.le v hv.onGrid
    rw [abs_sub_comm, abs_sub_comm (n : ℚ) v, abs_of_pos (by linarith : (0 : ℚ) < v - n)] at hnear
    have := le_abs_self ((k : ℚ) * 2 ^ f - n)
    linarith
  exact ⟨hlow, hhigh⟩

theorem defaultTailRatio_eq : defaultTailRatio = .finite false 7656119366529843 (-53) := by
  decide +kernel

/-! ## What a cut gives -/

/-- A cut fits into the limit and gives the text itself exactly when that fits already; a share of the
room is needed only for a text that is too long. -/
theorem exists_cut {share : ℤ → Except Fault ℤ} {text : List Char} {limit : ℤ} (hlimit : 0 ≤ limit)
    (hshare : limit < text.length → 0 < roomFor text limit →
      ∃ tailRoom, share (roomFor text limit) = .ok tailRoom ∧ 0 ≤ tailRoom ∧
        tailRoom ≤ roomFor text limit) :
    ∃ out, cut share limit text = .ok out ∧ out.length ≤ limit ∧
      (out = text ↔ text.length ≤ limit) := by
  rcases le_or_gt (text.length : ℤ) limit with hfits | hlong
  · exact ⟨text, cut_of_fits hfits, hfits, iff_of_true rfl hfits⟩
  -- a result that fits is not the text
  suffices h : ∃ out, cut share limit text = .ok out ∧ out.length ≤ limit by
    obtain ⟨out, hout, hle⟩ := h
    refine ⟨out, hout, hle, iff_of_false ?_ (not_le.mpr hlong)⟩
    rintro rfl
    exact absurd hle (not_le.mpr hlong)
  rcases le_or_gt (roomFor text limit) 0 with hnone | hroom
  · refine ⟨_, cut_of_no_room hlong hnone, ?_⟩
    rw [upTo, placeOf, if_neg (by omega), List.length_take]
    omega
  · obtain ⟨tailRoom, hok, hnonneg, hle⟩ := hshare hlong hroom
    have hshort : tailRoom < text.length := by
      rw [roomFor] at hle
      omega
    have hhead := longestHead_wholeLinesAtStart text (sub_nonneg.mpr hle)
    have htail := longestTail_afterFirstLine text hnonneg hshort
    refine ⟨_, cut_of_room hlong hroom hok hnonneg hle, ?_⟩
    have hparts := length_head_add_tail hhead htail
    have := length_assemble_le text
      (wholeLinesAtStart (text.take (roomFor text limit - tailRoom).toNat))
      (afterFirstLine (text.drop (text.length - tailRoom.toNat - 1)))
    omega

/-- **A cut fits into the limit**, gives the text itself exactly when that fits already, and changes
nothing when it is repeated, whatever share of the room the end gets. -/
theorem cut_bounded (share : ℤ → Except Fault ℤ) (text : List Char) (limit : ℤ) (hlimit : 0 ≤ limit)
    (hshare : ∀ room, 0 < room → room < limit →
      ∃ tailRoom, share room = .ok tailRoom ∧ 0 ≤ tailRoom ∧ tailRoom ≤ room) :
    ∃ out, cut share limit text = .ok out ∧ out.length ≤ limit ∧
      (out = text ↔ text.length ≤ limit) ∧ cut share limit out = .ok out := by
  have hless : roomFor text limit < limit := by
    rw [roomFor]
    omega
  obtain ⟨out, hout, hle, hwhole⟩ := exists_cut hlimit fun _ hroom => hshare _ hroom hless
  exact ⟨out, hout, hle, hwhole, cut_of_fits hle⟩

/-- Twelve lines of output. -/
def twelveLines : List Char := (List.replicate 12 "line of a log\n".toList).flatten

/-- Twelve lines do not fit into 120 characters; the end gets the usual share. -/
theorem cut_bounded_log :
    let share := shareOf defaultTailRatio
    (0 : ℤ) ≤ 120 ∧
      (∀ room, 0 < room → room < 120 →
        ∃ tailRoom, share room = .ok tailRoom ∧ 0 ≤ tailRoom ∧ tailRoom ≤ room) ∧
      ∃ out, cut share 120 twelveLines = .ok out ∧ (out.length : ℤ) ≤ 120 ∧
        (out = twelveLines ↔ (twelveLines.length : ℤ) ≤ 120) ∧ cut share 120 out = .ok out := by
  have hshare : ∀ room : ℤ, 0 < room → room < 120 →
      ∃ tailRoom, shareOf defaultTailRatio room = .ok tailRoom ∧ 0 ≤ tailRoom ∧ tailRoom ≤ room := by
    intro room hpos hroom
    rw [defaultTailRatio_eq]
    exact shareOf_mem (by norm_num) hpos (by omega)
  exact ⟨by decide, hshare, cut_bounded _ _ _ (by decide) hshare⟩

theorem exists_between {head tail text : List Char} (hhead : head <+: text) (htail : tail <:+ text)
    (hlength : head.length + tail.length ≤ text.length) :
    ∃ omitted, text = head ++ omitted ++ tail := by
  obtain ⟨rest, rfl⟩ := hhead
  have hrest : tail <:+ rest := by
    refine List.suffix_of_suffix_length_le htail (List.suffix_append _ _) ?_
    rw [List.length_append] at hlength
    omega
  obtain ⟨omitted, rfl⟩ := hrest
  exact ⟨omitted, (List.append_assoc _ _ _).symm⟩

/-- **A cut leaves out the middle of the text and only whole lines stay around the marker**, as many as
fit into their parts of the room. -/
theorem cut_whole_lines {share : ℤ → Except Fault ℤ} {text : List Char} {limit tailRoom : ℤ}
    (hlong : limit < text.length) (hroom : 0 < roomFor text limit)
    (hshare : share (roomFor text limit) = .ok tailRoom) (hnonneg : 0 ≤ tailRoom)
    (hle : tailRoom ≤ roomFor text limit) :
    ∃ head omitted tail : List Char, text = head ++ omitted ++ tail ∧ omitted ≠ [] ∧
      LongestHead text (roomFor text limit - tailRoom) head ∧ LongestTail text tailRoom tail ∧
      cut share limit text = .ok (head ++ (omissionMarker omitted.length).toList ++
        if tail = [] then [] else '\n' :: tail) ∧
      omissionMarker omitted.length =
        s!"... (about {max 1 (thousands omitted.length)}K chars omitted) ..." ∧
      (omitted.length ≤ 2 ^ 52 → thousands omitted.length = (omitted.length + 500) / 1000) := by
  have hhead := longestHead_wholeLinesAtStart text (sub_nonneg.mpr hle)
  have htail := longestTail_afterFirstLine text hnonneg (by rw [roomFor] at hle; omega)
  have hcut := cut_of_room hlong hroom hshare hnonneg hle
  have hparts := length_head_add_tail hhead htail
  generalize wholeLinesAtStart (text.take (roomFor text limit - tailRoom).toNat) = head at *
  generalize afterFirstLine (text.drop (text.length - tailRoom.toNat - 1)) = tail at *
  obtain ⟨omitted, htext⟩ := exists_between hhead.atStart htail.atEnd (by omega)
  have hlength : text.length = head.length + omitted.length + tail.length := by
    rw [htext, List.length_append, List.length_append]
  refine ⟨head, omitted, tail, htext, ?_, hhead, htail, ?_, rfl, thousands_eq⟩
  · rintro rfl
    rw [List.length_nil] at hlength
    omega
  · have hcount : text.length - head.length - tail.length = omitted.length := by omega
    rw [hcut, assemble, hcount]
    cases tail <;> simp

/-- The first line of twelve and the last five stay. -/
theorem cut_whole_lines_log :
    let share := shareOf defaultTailRatio
    (120 : ℤ) < twelveLines.length ∧ 0 < roomFor twelveLines 120 ∧
      share (roomFor twelveLines 120) = .ok 73 ∧ 73 ≤ roomFor twelveLines 120 ∧
      ∃ head omitted tail : List Char, twelveLines = head ++ omitted ++ tail ∧ omitted ≠ [] ∧
        LongestHead twelveLines (roomFor twelveLines 120 - 73) head ∧
        LongestTail twelveLines 73 tail ∧
        cut share 120 twelveLines = .ok (head ++ (omissionMarker omitted.length).toList ++
          if tail = [] then [] else '\n' :: tail) ∧
        omissionMarker omitted.length =
          s!"... (about {max 1 (thousands omitted.length)}K chars omitted) ..." ∧
        (omitted.length ≤ 2 ^ 52 → thousands omitted.length = (omitted.length + 500) / 1000) := by
  have hlong : (120 : ℤ) < twelveLines.length := by decide +kernel
  have hroom : roomFor twelveLines 120 = 87 := by decide +kernel
  have hshare : shareOf defaultTailRatio (roomFor twelveLines 120) = .ok 73 := by
    rw [hroom, defaultTailRatio_eq]
    rfl
  exact ⟨hlong, by omega, hshare, by omega,
    cut_whole_lines hlong (by omega) hshare (by norm_num) (by omega)⟩

/-! ## Reports -/

theorem shareOf_bounds {ratio : Binary64} {room share : ℤ} (hzero : zero false < ratio)
    (hone : ratio < ofInt 1) (hbinary : ratio.IsBinary) (hpos : 0 < room)
    (h : shareOf ratio room = .ok share) : 0 ≤ share ∧ share ≤ room := by
  obtain ⟨m, e, rfl, hlt⟩ := eq_finite_of_lt_one hzero hone
  obtain ⟨n, rfl⟩ := Int.eq_ofNat_of_zero_le hpos.le
  have hofInt : ofInt (n : ℤ) = ofRatio false n 1 := by
    rw [ofInt, Int.natAbs_natCast]
    congr 1
  obtain ⟨x, hx, hroom⟩ := ofRatio_isNearest n one_pos
  rw [Nat.cast_one, div_one] at hx
  rw [shareOf, hofInt] at h
  generalize ofRatio false n 1 = size at *
  cases hroom with
  | infinite large =>
    -- there is no share of an infinite room
    simp only [mul] at h
    split_ifs at h <;> cases h
  | @finite k f normal eq small =>
    obtain ⟨v, hv, hproduct⟩ := mul_isNearest k m f e
    have hbounds := product_bounds (by exact_mod_cast hpos) normal (eq ▸ hx) hv hbinary hlt
    generalize mul (.finite false k f) (.finite false m e) = product at *
    cases hproduct with
    | infinite large => cases h
    | finite _ heq _ =>
      simp only [floor?_finite, ← heq, Except.ok.injEq] at h
      subst h
      exact ⟨Int.floor_nonneg.mpr hbounds.1, by exact_mod_cast (Int.floor_le v).trans hbounds.2⟩

/-- **What a cut gives fits into the limit**, if the share of the room is a part of it. -/
theorem length_le_of_cut {share : ℤ → Except Fault ℤ} {text out : List Char} {limit : ℤ}
    (hlimit : 0 ≤ limit)
    (hshare : ∀ tailRoom, 0 < roomFor text limit → share (roomFor text limit) = .ok tailRoom →
      0 ≤ tailRoom ∧ tailRoom ≤ roomFor text limit)
    (h : cut share limit text = .ok out) : out.length ≤ limit := by
  cases hroom : share (roomFor text limit) with
  | ok tailRoom =>
    obtain ⟨own, hown, hfits, -⟩ := exists_cut hlimit fun _ hpos =>
      ⟨tailRoom, hroom, hshare tailRoom hpos hroom⟩
    cases hown.symm.trans h
    exact hfits
  | error fault =>
    -- the cut did without a share of the room
    rw [cut_eq] at h
    split_ifs at h with hfits hnone
    · cases h
      exact hfits
    · cases h
      rw [upTo, placeOf, if_neg (not_lt.mpr hlimit), List.length_take]
      omega
    · rw [hroom] at h
      cases h

/-- **A bounded report fits into its limit.** -/
theorem length_bounded_le {limit : ℤ} (hlimit : 0 ≤ limit) (text : String) :
    (bounded limit text).length ≤ limit := by
  rw [bounded, truncate]
  cases hcut : cut (shareOf defaultTailRatio) limit text.toList with
  | error fault => exact hlimit
  | ok out =>
    have hfits : out.length ≤ limit := by
      refine length_le_of_cut hlimit (fun tailRoom hpos hshare => ?_) hcut
      exact shareOf_bounds (by decide +kernel) (by decide +kernel) (by
        rw [defaultTailRatio_eq]
        exact ⟨7656119366529843, -53, by norm_num, by norm_num, rfl⟩) hpos hshare
    change ((String.ofList out).length : ℤ) ≤ limit
    rw [String.length_ofList]
    exact hfits

end Lintel.Report
