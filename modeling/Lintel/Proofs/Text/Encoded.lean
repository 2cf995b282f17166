import Lintel.Text.Bytes
import Mathlib.Data.List.Basic

/-!
# Text that was encoded

The bytes of a text are read back as that text, also from the middle of it: a slice of the bytes whose ends
lie between characters holds the characters between these ends. More bytes never give fewer characters, also
where the bytes are no text or break off within a character.

* `scan_encodeChar`: at the front of an encoded text stands its first character;
* `decodeLossy_encodeChars`: an encoded text is read back;
* `byteOf`: where a character of a text starts in its bytes;
* **`slice_encodeChars`**: a slice between two characters is the encoded text between them;
* `mem_encodeChar`: the bytes below 0x80 are those of the characters below 0x80;
* `scan_append`: what stands at the front of bytes stays the same when bytes follow, unless it was cut off by
  the end; **`length_decodeLossy_append`**: more bytes give at least as many characters.
-/

namespace Lintel.Text

/-! ## Bytes of a character -/

/-- The byte that continues a character with the low six bits of a number. -/
def tailByte (k : ℕ) : UInt8 := UInt8.ofNat (0x80 + k % 64)

theorem toNat_ofNat_of_lt {k : ℕ} (h : k < 256) : (UInt8.ofNat k).toNat = k := by
  rw [UInt8.toNat_ofNat', Nat.mod_eq_of_lt (by simpa using h)]

theorem toNat_tailByte (k : ℕ) : (tailByte k).toNat = 0x80 + k % 64 :=
  toNat_ofNat_of_lt (by omega)

theorem isTail_tailByte (k : ℕ) : isTail (tailByte k) = true := by
  simp only [isTail, Bool.and_eq_true, decide_eq_true_eq, UInt8.le_iff_toNat_le,
    UInt8.lt_iff_toNat_lt, toNat_tailByte, UInt8.reduceToNat]
  omega

theorem tailBits_tailByte (k : ℕ) : tailBits (tailByte k) = k % 64 := by
  rw [tailBits, toNat_tailByte]
  omega

theorem encodeChar_eq (c : Char) : encodeChar c =
    if c.toNat < 0x80 then [UInt8.ofNat c.toNat]
    else if c.toNat < 0x800 then [UInt8.ofNat (0xc0 + c.toNat / 64), tailByte c.toNat]
    else if c.toNat < 0x10000 then
      [UInt8.ofNat (0xe0 + c.toNat / 4096), tailByte (c.toNat / 64), tailByte c.toNat]
    else [UInt8.ofNat (0xf0 + c.toNat / 262144), tailByte (c.toNat / 4096), tailByte (c.toNat / 64),
      tailByte c.toNat] := by
  simp [encodeChar, tailByte]

/-! ## Reading a character -/

section Scan

variable {l k : ℕ} (k' k'' : ℕ) (rest : Bytes)

theorem isSecond_tailByte (h : l < 256) : isSecond (UInt8.ofNat l) (tailByte k) = true ↔
    (l = 0xe0 → 0x20 ≤ k % 64) ∧ (l = 0xed → k % 64 < 0x20) ∧ (l = 0xf0 → 0x10 ≤ k % 64) ∧
      (l = 0xf4 → k % 64 < 0x10) := by
  simp only [isSecond, isTail_tailByte, Bool.true_and, beq_iff_eq, ← UInt8.toNat_inj,
    toNat_ofNat_of_lt h, UInt8.reduceToNat]
  split_ifs <;>
    simp only [decide_eq_true_eq, UInt8.le_iff_toNat_le, UInt8.lt_iff_toNat_lt, toNat_tailByte,
      UInt8.reduceToNat, true_iff] <;> omega

theorem scan_one (h : l < 0x80) : scan (UInt8.ofNat l) rest = .char (Char.ofNat l) 0 := by
  have hl := toNat_ofNat_of_lt (show l < 256 by omega)
  unfold scan
  rw [if_pos (by rwa [UInt8.lt_iff_toNat_lt, hl]), hl]

theorem lead_of_several (h : 0xc2 ≤ l) (h' : l < 0xf5) :
    (UInt8.ofNat l).toNat = l ∧ ¬ UInt8.ofNat l < 0x80 ∧
      (decide (UInt8.ofNat l < 0xc2) || decide (0xf5 ≤ UInt8.ofNat l)) = false := by
  have hl := toNat_ofNat_of_lt (show l < 256 by omega)
  simp only [UInt8.lt_iff_toNat_lt, UInt8.le_iff_toNat_le, hl, UInt8.reduceToNat,
    Bool.or_eq_false_iff, decide_eq_false_iff_not, true_and]
  omega

theorem scan_two (h : 0xc2 ≤ l) (h' : l < 0xe0) :
    scan (UInt8.ofNat l) (tailByte k :: rest) = .char (Char.ofNat (l % 32 * 64 + k % 64)) 1 := by
  obtain ⟨hl, hlow, hlead⟩ := lead_of_several h (by omega)
  have hsecond := (isSecond_tailByte (k := k) (show l < 256 by omega)).mpr (by omega)
  have htwo : UInt8.ofNat l < 0xe0 := by rwa [UInt8.lt_iff_toNat_lt, hl]
  simp [scan, hlow, hlead, hsecond, htwo, hl, tailBits_tailByte]

theorem scan_three (h : 0xe0 ≤ l) (h' : l < 0xf0) (hlow : l = 0xe0 → 0x20 ≤ k % 64)
    (hhigh : l = 0xed → k % 64 < 0x20) :
    scan (UInt8.ofNat l) (tailByte k :: tailByte k' :: rest) =
      .char (Char.ofNat (l % 16 * 4096 + k % 64 * 64 + k' % 64)) 2 := by
  obtain ⟨hl, hfirst, hlead⟩ := lead_of_several (show 0xc2 ≤ l by omega) (by omega)
  have hsecond := (isSecond_tailByte (k := k) (show l < 256 by omega)).mpr (by omega)
  have htwo : ¬ UInt8.ofNat l < 0xe0 := by rw [UInt8.lt_iff_toNat_lt, hl]; exact Nat.not_lt.mpr h
  have hthree : UInt8.ofNat l < 0xf0 := by rwa [UInt8.lt_iff_toNat_lt, hl]
  simp [scan, hfirst, hlead, hsecond, htwo, hthree, hl, tailBits_tailByte, isTail_tailByte]

theorem scan_four (h : 0xf0 ≤ l) (h' : l < 0xf5) (hlow : l = 0xf0 → 0x10 ≤ k % 64)
    (hhigh : l = 0xf4 → k % 64 < 0x10) :
    scan (UInt8.ofNat l) (tailByte k :: tailByte k' :: tailByte k'' :: rest) =
      .char (Char.ofNat (l % 8 * 262144 + k % 64 * 4096 + k' % 64 * 64 + k'' % 64)) 3 := by
  obtain ⟨hl, hfirst, hlead⟩ := lead_of_several (show 0xc2 ≤ l by omega) h'
  have hsecond := (isSecond_tailByte (k := k) (show l < 256 by omega)).mpr (by omega)
  have htwo : ¬ UInt8.ofNat l < 0xe0 := by
    simp only [UInt8.lt_iff_toNat_lt, hl, UInt8.reduceToNat]
    omega
  have hthree : ¬ UInt8.ofNat l < 0xf0 := by rw [UInt8.lt_iff_toNat_lt, hl]; exact Nat.not_lt.mpr h
  simp [scan, hfirst, hlead, hsecond, htwo, hthree, hl, tailBits_tailByte, isTail_tailByte]

end Scan

theorem toNat_of_char (c : Char) : c.toNat < 0xd800 ∨ 0xdfff < c.toNat ∧ c.toNat < 0x110000 := c.valid

/-- **At the front of an encoded text stands its first character**, with all of its bytes. -/
theorem scan_encodeChar (c : Char) (rest : Bytes) : ∃ lead more, encodeChar c = lead :: more ∧
    scan lead (more ++ rest) = .char c more.length := by
  have hvalid := toNat_of_char c
  have hc : ∀ n, n = c.toNat → Char.ofNat n = c := fun n hn => by rw [hn, Char.ofNat_toNat]
  rw [encodeChar_eq]
  split_ifs with hone htwo hthree
  · exact ⟨_, _, rfl, by rw [List.nil_append, scan_one _ hone, hc _ rfl]; rfl⟩
  · refine ⟨_, _, rfl, ?_⟩
    rw [List.cons_append, List.nil_append, scan_two _ (by omega) (by omega), hc _ (by omega)]
    rfl
  · refine ⟨_, _, rfl, ?_⟩
    rw [List.cons_append, List.cons_append, List.nil_append, scan_three _ _ (by omega) (by omega)
      (by omega) (by omega), hc _ (by omega)]
    rfl
  · refine ⟨_, _, rfl, ?_⟩
    rw [List.cons_append, List.cons_append, List.cons_append, List.nil_append,
      scan_four _ _ _ (by omega) (by omega) (by omega) (by omega), hc _ (by omega)]
    rfl

theorem encodeChars_cons (c : Char) (cs : List Char) :
    encodeChars (c :: cs) = encodeChar c ++ encodeChars cs := List.flatMap_cons

theorem encodeChars_append (cs more : List Char) :
    encodeChars (cs ++ more) = encodeChars cs ++ encodeChars more := List.flatMap_append

/-- **An encoded text is read back.** -/
theorem decodeLossy_encodeChars (cs : List Char) : decodeLossy (encodeChars cs) = cs := by
  induction cs with
  | nil => rw [encodeChars, List.flatMap_nil, decodeLossy]
  | cons c cs ih =>
    obtain ⟨lead, more, hc, hscan⟩ := scan_encodeChar c (encodeChars cs)
    rw [encodeChars_cons, hc, List.cons_append, decodeLossy, hscan]
    simp only [List.drop_left, ih]

/-! ## Slices between characters -/

/-- Where the character with a number starts in the bytes of a text. -/
def byteOf (cs : List Char) (i : ℕ) : ℕ := (encodeChars (cs.take i)).length

theorem byteOf_add (cs : List Char) (i n : ℕ) :
    byteOf cs (i + n) = byteOf cs i + (encodeChars ((cs.drop i).take n)).length := by
  rw [byteOf, List.take_add, encodeChars_append, List.length_append]
  rfl

theorem take_byteOf (cs : List Char) (i : ℕ) :
    (encodeChars cs).take (byteOf cs i) = encodeChars (cs.take i) := by
  conv_lhs => rw [← List.take_append_drop i cs, encodeChars_append]
  rw [List.take_append_drop, byteOf, List.take_left]

theorem drop_byteOf (cs : List Char) (i : ℕ) :
    (encodeChars cs).drop (byteOf cs i) = encodeChars (cs.drop i) := by
  conv_lhs => rw [← List.take_append_drop i cs, encodeChars_append]
  rw [List.take_append_drop, byteOf, List.drop_left]

/-- **A slice between two characters is the encoded text between them**; it is empty if its end does not
come after its beginning. -/
theorem slice_encodeChars (cs : List Char) (i j : ℕ) :
    ((encodeChars cs).drop (byteOf cs i)).take (byteOf cs j - byteOf cs i) =
      encodeChars ((cs.take j).drop i) := by
  rw [drop_byteOf, List.drop_take]
  rcases Nat.le_total i j with hij | hji
  · obtain ⟨n, rfl⟩ := Nat.exists_eq_add_of_le hij
    rw [byteOf_add, Nat.add_sub_cancel_left, Nat.add_sub_cancel_left]
    exact take_byteOf (cs.drop i) n
  · obtain ⟨n, rfl⟩ := Nat.exists_eq_add_of_le hji
    rw [byteOf_add, Nat.sub_eq_zero_of_le (Nat.le_add_right _ _),
      Nat.sub_eq_zero_of_le (Nat.le_add_right _ _)]
    rfl

/-! ## Bytes that are characters -/

/-- **A byte below 0x80 stands for itself**: it is found only in the character with its number. -/
theorem mem_encodeChar {b : UInt8} (hb : b.toNat < 0x80) (c : Char) :
    b ∈ encodeChar c ↔ c.toNat = b.toNat := by
  have hvalid := toNat_of_char c
  rw [encodeChar_eq]
  split_ifs with hone htwo hthree <;>
    simp only [List.mem_cons, List.not_mem_nil, or_false, ← UInt8.toNat_inj, toNat_tailByte]
  · rw [toNat_ofNat_of_lt (by omega)]
    exact eq_comm
  -- all bytes of the other characters are from 0x80 on
  all_goals
    rw [toNat_ofNat_of_lt (by omega)]
    omega

/-! ## Bytes that break off -/

/-- The bytes after the first that are covered by what stands at the front. -/
def Scan.more : Scan → ℕ
  | char _ more => more
  | flaw _ more => more

theorem decodeLossy_cons (lead : UInt8) (rest : Bytes) :
    (decodeLossy (lead :: rest)).length =
      (decodeLossy (rest.drop (scan lead rest).more)).length + 1 := by
  rw [decodeLossy]
  cases scan lead rest <;> rfl

theorem scan_more_le (lead : UInt8) (rest : Bytes) : (scan lead rest).more ≤ rest.length := by
  rcases rest with _ | ⟨second, _ | ⟨third, _ | ⟨fourth, rest⟩⟩⟩ <;> simp only [scan] <;>
    split_ifs <;> simp [Scan.more]

/-- Only an end that comes too early is read otherwise when more bytes follow. -/
theorem scan_append (lead : UInt8) (rest more : Bytes) :
    scan lead (rest ++ more) = scan lead rest ∨ (scan lead rest).more = rest.length := by
  rcases rest with _ | ⟨second, _ | ⟨third, _ | ⟨fourth, rest⟩⟩⟩ <;>
    simp only [scan, List.nil_append, List.cons_append] <;> split_ifs <;> simp [Scan.more]

/-- **More bytes give at least as many characters.** -/
theorem length_decodeLossy_append (bytes more : Bytes) :
    (decodeLossy bytes).length ≤ (decodeLossy (bytes ++ more)).length := by
  match bytes with
  | [] => simp [decodeLossy]
  | lead :: rest =>
    rw [List.cons_append, decodeLossy_cons, decodeLossy_cons]
    rcases scan_append lead rest more with hsame | hend
    · have ih := length_decodeLossy_append (rest.drop (scan lead rest).more) more
      rw [hsame, List.drop_append_of_le_length (scan_more_le lead rest)]
      omega
    · rw [hend, List.drop_length, decodeLossy]
      exact Nat.le_add_left _ _
termination_by bytes.length
decreasing_by simp only [List.length_cons, List.length_drop]; omega

end Lintel.Text
