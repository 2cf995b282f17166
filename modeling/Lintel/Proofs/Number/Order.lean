import Lintel.Proofs.Number.Rounding

/-!
# The order of binary numbers

Numbers are in the order of their values. Just below one, the grid ends at `1 - 2 ^ (-53)`, and below a
greater number the next one is not twice as far away; so a product with a number below one is rounded to
less than the other factor.

* `OnGrid.le_of_lt_one`, `Normal.exists_below`: the numbers next below;
* **`IsNearest.lt_of_mul`**: a product with a number below one stays below the other factor;
* **`lt_finite_iff`**: the order of finite numbers is that of their values;
* `IsBinary`, `eq_finite_of_lt_one`: binary numbers, and what is between zero and one.
-/

namespace Lintel.Number.Binary64

/-! ## The next number below -/

/-- Below one, the grid ends at `1 - 2 ^ (-53)`. -/
theorem OnGrid.le_of_lt_one {r : ℚ} (h : OnGrid r) (hlt : r < 1) : r ≤ 1 - 2 ^ (-53 : ℤ) := by
  obtain ⟨m, e, hm, -, rfl⟩ := h
  have hpow : (0 : ℚ) < 2 ^ e := zpow_pos (by norm_num) e
  rcases lt_or_ge e (-53) with hfine | hcoarse
  · calc (m : ℚ) * 2 ^ e ≤ (2 : ℚ) ^ 53 * 2 ^ (-54 : ℤ) := by
          gcongr
          · exact_mod_cast hm
          · norm_num
          · omega
      _ ≤ 1 - 2 ^ (-53 : ℤ) := by norm_num
  rcases Nat.eq_zero_or_pos m with rfl | hpos
  · norm_num
  have hone : (1 : ℚ) ≤ m := by exact_mod_cast hpos
  have he : e < 0 := by
    by_contra hnot
    have : (1 : ℚ) ≤ 2 ^ e := one_le_zpow₀ (by norm_num) (not_lt.mp hnot)
    nlinarith
  -- one is a whole number of units, so the number lies at least one unit below it
  obtain ⟨d, hd⟩ := Int.eq_ofNat_of_zero_le (by omega : 0 ≤ -e)
  have hunits : (1 : ℚ) = (2 ^ d : ℕ) * 2 ^ e := by
    rw [show e = -(d : ℤ) by omega, zpow_neg, zpow_natCast]
    push_cast
    field_simp
  have hnext : m + 1 ≤ 2 ^ d := by
    rw [hunits] at hlt
    exact_mod_cast lt_of_mul_lt_mul_right hlt hpow.le
  calc (m : ℚ) * 2 ^ e = (m + 1 : ℕ) * 2 ^ e - 2 ^ e := by push_cast; ring
    _ ≤ (2 ^ d : ℕ) * 2 ^ e - 2 ^ (-53 : ℤ) := by
      gcongr
      norm_num
    _ = 1 - 2 ^ (-53 : ℤ) := by rw [← hunits]

/-- Below a number from one on there is one of the grid that is nearer than two units in the last place
of one with 53 bits. -/
theorem Normal.exists_below {k : ℕ} {f : ℤ} (h : Normal k f) (hone : (1 : ℚ) ≤ k * 2 ^ f) :
    ∃ p, OnGrid p ∧ p < k * 2 ^ f ∧ (k : ℚ) * 2 ^ f - p < k * 2 ^ f * 2 ^ (-52 : ℤ) := by
  have hpow : (0 : ℚ) < 2 ^ f := zpow_pos (by norm_num) f
  rcases h with ⟨rfl, rfl⟩ | ⟨hpos, hlt, hleast, hfine⟩
  · norm_num at hone
  have hlarge : -53 < f := by
    by_contra hnot
    have hsmall : (k : ℚ) * 2 ^ f < 2 ^ 53 * 2 ^ (-53 : ℤ) := by
      calc (k : ℚ) * 2 ^ f < (2 : ℚ) ^ 53 * 2 ^ f := by gcongr; exact_mod_cast hlt
        _ ≤ 2 ^ 53 * 2 ^ (-53 : ℤ) := by
          gcongr
          · norm_num
          · omega
    norm_num at hsmall
    linarith
  have hmantissa : 2 ^ 52 ≤ k := hfine.resolve_left (by omega)
  rcases hmantissa.eq_or_lt with heq | hmore
  · -- a power of two: the numbers below it lie twice as dense
    have hhalf : (2 : ℚ) ^ f = 2 * 2 ^ (f - 1) := by
      rw [← zpow_one_add₀ (by norm_num)]
      congr 1
      ring
    have hpow' : (0 : ℚ) < 2 ^ (f - 1) := zpow_pos (by norm_num) _
    refine ⟨(2 ^ 53 - 1 : ℕ) * 2 ^ (f - 1), ⟨_, _, by norm_num, by omega, rfl⟩, ?_, ?_⟩ <;>
      · rw [← heq, hhalf]
        norm_num
        linarith
  · have hk : (2 : ℚ) ^ 52 < k := by exact_mod_cast hmore
    refine ⟨(k - 1 : ℕ) * 2 ^ f, ⟨_, _, by omega, hleast, rfl⟩, ?_, ?_⟩
    · gcongr
      omega
    · rw [Nat.cast_sub (by omega), Nat.cast_one]
      have hscaled : (2 : ℚ) ^ f < k * 2 ^ f * 2 ^ (-52 : ℤ) := by
        have hunit : (1 : ℚ) < k * 2 ^ (-52 : ℤ) := by
          calc (1 : ℚ) = 2 ^ 52 * 2 ^ (-52 : ℤ) := by norm_num
            _ < k * 2 ^ (-52 : ℤ) := by gcongr
        calc (2 : ℚ) ^ f = 2 ^ f * 1 := (mul_one _).symm
          _ < 2 ^ f * (k * 2 ^ (-52 : ℤ)) := by gcongr
          _ = k * 2 ^ f * 2 ^ (-52 : ℤ) := by ring
      linarith

/-- A product with a number below one is not rounded up to the other factor, if that is at least one. -/
theorem IsNearest.lt_of_mul {k : ℕ} {f : ℤ} {r v : ℚ} (h : IsNearest (k * 2 ^ f * r) v)
    (hk : Normal k f) (hone : (1 : ℚ) ≤ k * 2 ^ f) (hr : OnGrid r) (hlt : r < 1) :
    v < k * 2 ^ f := by
  obtain ⟨p, hp, hbelow, hnear⟩ := hk.exists_below hone
  have hshare := hr.le_of_lt_one hlt
  by_contra hnot
  have hmiddle := IsNearest.middle_le (hbelow.trans_le (not_lt.mp hnot)) (h.le p hp)
  set x : ℚ := k * 2 ^ f
  have hproduct : x * r ≤ x * (1 - 2 ^ (-53 : ℤ)) := by gcongr
  have hhalf : x * 2 ^ (-52 : ℤ) = 2 * (x * 2 ^ (-53 : ℤ)) := by
    rw [show (-52 : ℤ) = 1 + -53 by norm_num, zpow_one_add₀ (by norm_num)]
    ring
  linarith

/-! ## The order of numbers -/

/-- **Finite numbers are in the order of their values.** -/
theorem lt_finite_iff (a b : Bool) (m n : ℕ) (e f : ℤ) :
    Binary64.finite a m e < .finite b n f ↔ (signed a m : ℚ) * 2 ^ e < signed b n * 2 ^ f := by
  obtain ⟨low, hlow⟩ : ∃ low, min e f = low := ⟨_, rfl⟩
  obtain ⟨i, hi⟩ := Int.eq_ofNat_of_zero_le (by omega : 0 ≤ e - low)
  obtain ⟨j, hj⟩ := Int.eq_ofNat_of_zero_le (by omega : 0 ≤ f - low)
  have hpow : (0 : ℚ) < 2 ^ low := zpow_pos (by norm_num) low
  have hlt : Binary64.finite a m e < .finite b n f ↔
      signed a m * (Nat.pow 2 i : ℤ) < signed b n * (Nat.pow 2 j : ℤ) := by
    change lt _ _ = true ↔ _
    simp only [lt, compare?, aligned, hlow, hi, hj, Int.toNat_natCast]
    simp [Int.compare_eq_lt]
  rw [hlt, ← Int.cast_lt (R := ℚ), ← mul_lt_mul_iff_left₀ hpow, show e = i + low by omega,
    show f = j + low by omega, zpow_add₀ (by norm_num), zpow_add₀ (by norm_num), zpow_natCast,
    zpow_natCast]
  push_cast [Nat.pow_eq]
  rw [mul_assoc, mul_assoc]

/-- The number has a mantissa of 53 bits, if it is finite. -/
def IsBinary : Binary64 → Prop
  | .finite _ m e => OnGrid (m * 2 ^ e)
  | _ => True

theorem ofInt_one : ofInt 1 = .finite false (2 ^ 52) (-52) := by decide

/-- A number between zero and one is finite and has no sign. -/
theorem eq_finite_of_lt_one {x : Binary64} (hpos : zero false < x) (hlt : x < ofInt 1) :
    ∃ m e, x = .finite false m e ∧ (m : ℚ) * 2 ^ e < 1 := by
  match x with
  | .nan => cases hpos
  | .infinite true => cases hpos
  | .infinite false => rw [ofInt_one] at hlt; cases hlt
  | .finite true m e =>
    have hsign : (signed true m : ℚ) ≤ 0 := by simp [signed]
    have hpow : (0 : ℚ) < 2 ^ e := zpow_pos (by norm_num) e
    rw [zero, lt_finite_iff] at hpos
    have hvalue : (0 : ℚ) < signed true m * 2 ^ e := by simpa [signed] using hpos
    exact absurd hvalue (not_lt.mpr (mul_nonpos_of_nonpos_of_nonneg hsign hpow.le))
  | .finite false m e =>
    have hone : ((signed false (2 ^ 52) : ℤ) : ℚ) * 2 ^ (-52 : ℤ) = 1 := by norm_num [signed]
    rw [ofInt_one, lt_finite_iff, hone] at hlt
    exact ⟨m, e, rfl, hlt⟩

end Lintel.Number.Binary64
