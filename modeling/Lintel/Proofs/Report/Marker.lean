import Lintel.Proofs.Number.Rounding
import Lintel.Report.Truncate
import Mathlib.Data.Nat.Digits.Defs

/-!
# Omission markers

The marker states thousands of characters, counted with binary numbers. More characters never give a
shorter marker, so the room that is set aside for all of a text is enough for any part of it.

* `halfUp?_of_written`: the whole number nearest to a binary number comes from the nearest sum;
* **`thousands_mono`**: the thousands of a larger count are not fewer, whatever the rounding does;
* **`thousands_eq`**: up to 2^52 characters they are exact;
* **`length_omissionMarker_mono`**: a marker for more characters is not shorter.
-/

namespace Lintel.Report

open Number (Binary64)
open Number.Binary64

/-! ## Rounding a quotient -/

theorem ofRatio_half : Binary64.ofRatio false 1 2 = .finite false (2 ^ 52) (-53) := by decide

theorem half_eq : ((2 ^ 52 : ℕ) : ℚ) * 2 ^ (-53 : ℤ) = 1 / 2 := by norm_num

theorem le_of_lt_full {x : ℚ} {f : ℤ} (hgrid : OnGrid x) (hlt : x < 2 ^ 53 * 2 ^ f) :
    x ≤ (2 ^ 53 - 1) * 2 ^ f := by
  obtain ⟨m, e, hm, _, rfl⟩ := hgrid
  have hpos : (0 : ℚ) < 2 ^ f := zpow_pos (by norm_num) _
  rcases le_or_gt f e with hcoarse | hfine
  · obtain ⟨d, hd⟩ := Int.eq_ofNat_of_zero_le (by omega : 0 ≤ e - f)
    have hvalue : (m : ℚ) * 2 ^ e = (m * 2 ^ d : ℕ) * 2 ^ f := by
      rw [show e = d + f by omega, zpow_add₀ (by norm_num), zpow_natCast]
      push_cast
      ring
    rw [hvalue] at hlt ⊢
    have hfewer : m * 2 ^ d + 1 ≤ 2 ^ 53 := by exact_mod_cast lt_of_mul_lt_mul_right hlt hpos.le
    refine mul_le_mul_of_nonneg_right ?_ hpos.le
    rw [le_sub_iff_add_le]
    exact_mod_cast hfewer
  · calc (m : ℚ) * 2 ^ e ≤ (2 : ℚ) ^ 53 * 2 ^ (f - 1) := by
          gcongr
          · exact_mod_cast hm
          · norm_num
          · omega
      _ = (2 ^ 53 / 2) * 2 ^ f := by rw [zpow_sub_one₀ (by norm_num)]; ring
      _ ≤ (2 ^ 53 - 1) * 2 ^ f := mul_le_mul_of_nonneg_right (by norm_num) hpos.le

theorem add_one_lt_tooLarge {x : ℚ} (hgrid : OnGrid x) (hlt : x < tooLarge) : x + 1 < tooLarge := by
  have hstep : (1 : ℚ) < 2 ^ (971 : ℤ) := one_lt_zpow₀ (by norm_num) (by norm_num)
  have hwhole : tooLarge = 2 ^ 53 * 2 ^ (971 : ℤ) := tooLarge_eq 53 (by norm_num)
  rw [hwhole] at hlt ⊢
  have hle := le_of_lt_full hgrid hlt
  generalize (2 : ℚ) ^ (971 : ℤ) = step at *
  linarith

theorem lt_tooLarge_of_isNearest {x y : ℚ} (hgrid : OnGrid x) (hlt : x < tooLarge)
    (hy : IsNearest (x + 1 / 2) y) : y < tooLarge := by
  have hnear : |x + 1 / 2 - y| ≤ 1 / 2 := by
    calc |x + 1 / 2 - y| ≤ |x + 1 / 2 - x| := hy.le x hgrid
      _ = 1 / 2 := by norm_num
  have hroom := add_one_lt_tooLarge hgrid hlt
  have := (abs_le.mp hnear).1
  linarith

/-- **The whole number nearest to a binary number**: a half is added, the sum becomes the nearest number
and loses what is left of the whole. -/
theorem halfUp?_of_written {x : ℚ} {value : Binary64} (hgrid : OnGrid x) (h : Written x value) :
    (x < tooLarge ∧ ∃ y, IsNearest (x + 1 / 2) y ∧ y < tooLarge ∧ halfUp? value = some ⌊y⌋) ∨
      (tooLarge ≤ x ∧ halfUp? value = none) := by
  rw [halfUp?, ofRatio_half]
  cases h with
  | infinite large => exact .inr ⟨large, rfl⟩
  | @finite m e normal eq small =>
    obtain ⟨y, hnearest, hwritten⟩ := add_isNearest m (2 ^ 52) e (-53)
    rw [half_eq, ← eq] at hnearest
    have hlt := lt_tooLarge_of_isNearest hgrid small hnearest
    refine .inl ⟨small, y, hnearest, hlt, ?_⟩
    generalize add (.finite false m e) (.finite false (2 ^ 52) (-53)) = sum at *
    cases hwritten with
    | infinite large => exact absurd hlt (not_lt.mpr large)
    | finite normal eq small => rw [floor?_finite, ← eq]

/-! ## Thousands -/

theorem quotient_isNearest (count : ℕ) :
    ∃ x, IsNearest ((count : ℚ) / 1000) x ∧ Written x (.ofRatio false count 1000) := by
  exact_mod_cast ofRatio_isNearest count (by norm_num : 0 < 1000)

theorem thousands_of_some {count : ℕ} {whole : ℤ}
    (h : halfUp? (.ofRatio false count 1000) = some whole) : thousands count = whole.toNat := by
  rw [thousands, h, Option.getD_some]

theorem thousands_of_none {count : ℕ} (h : halfUp? (.ofRatio false count 1000) = none) :
    thousands count = (count + 500) / 1000 := by
  rw [thousands, h, Option.getD_none, Int.toNat_natCast]

/-- **More characters never make fewer thousands.** -/
theorem thousands_mono : Monotone thousands := by
  intro count count' hle
  rcases hle.eq_or_lt with rfl | hlt
  · exact le_rfl
  obtain ⟨x, hx, hwritten⟩ := quotient_isNearest count
  obtain ⟨x', hx', hwritten'⟩ := quotient_isNearest count'
  have hquotient : (count : ℚ) / 1000 < count' / 1000 := by
    have : (count : ℚ) < count' := by exact_mod_cast hlt
    linarith
  have hexact : (count + 500) / 1000 ≤ (count' + 500) / 1000 := by omega
  rcases (hx.lt_imp_le hx' hquotient).eq_or_lt with heq | hless
  · -- the same binary number; only the exact quotients may differ
    have hsame := hwritten.unique (heq ▸ hwritten')
    cases hhalf : halfUp? (.ofRatio false count 1000) with
    | none => rwa [thousands_of_none hhalf, thousands_of_none (hsame ▸ hhalf)]
    | some whole => rw [thousands_of_some hhalf, thousands_of_some (hsame ▸ hhalf)]
  · rcases halfUp?_of_written hx.onGrid hwritten with ⟨_, y, hy, hylt, hsome⟩ | ⟨hlarge, hnone⟩ <;>
      rcases halfUp?_of_written hx'.onGrid hwritten' with
        ⟨hsmall', y', hy', _, hsome'⟩ | ⟨hlarge', hnone'⟩
    · have hyy : y ≤ y' := hy.lt_imp_le hy' (by linarith)
      rw [thousands_of_some hsome, thousands_of_some hsome']
      exact Int.toNat_le_toNat (Int.floor_le_floor hyy)
    · -- from a finite number to an infinity: the exact quotient is above all finite ones
      have habove : y ≤ (count' : ℚ) / 1000 := by
        by_contra hnot
        have hback := hx'.le_of_le hy.onGrid (not_le.mp hnot).le
        exact absurd hlarge' (not_le.mpr (hback.trans_lt hylt))
      rw [thousands_of_some hsome, thousands_of_none hnone']
      calc ⌊y⌋.toNat ≤ ⌊(count' : ℚ) / 1000⌋.toNat :=
            Int.toNat_le_toNat (Int.floor_le_floor habove)
        _ = count' / 1000 := by
            have hfloor := Rat.floor_natCast_div_natCast count' 1000
            push_cast at hfloor
            rw [hfloor]
            omega
        _ ≤ (count' + 500) / 1000 := by omega
    · exact absurd (hlarge.trans hless.le) (not_le.mpr hsmall')
    · rwa [thousands_of_none hnone, thousands_of_none hnone']

/-- **The thousands are exact** as long as a mantissa holds them with ten more bits. -/
theorem thousands_eq {count : ℕ} (hcount : count ≤ 2 ^ 52) :
    thousands count = (count + 500) / 1000 := by
  obtain ⟨x, hx, hwritten⟩ := quotient_isNearest count
  set k := (count + 500) / 1000 with hk
  -- three numbers of the grid that enclose the quotient and the sum
  have hupper : OnGrid ((k * 1024 + 511 : ℕ) * 2 ^ (-10 : ℤ)) :=
    ⟨_, _, by omega, by norm_num, rfl⟩
  have hsumUpper : OnGrid ((k * 1024 + 1023 : ℕ) * 2 ^ (-10 : ℤ)) :=
    ⟨_, _, by omega, by norm_num, rfl⟩
  have hwhole : OnGrid k := ⟨k, 0, by omega, by norm_num, by simp⟩
  have hten : (2 : ℚ) ^ (-10 : ℤ) = 1 / 1024 := by norm_num
  rw [hten] at hupper hsumUpper
  push_cast at hupper hsumUpper
  have hxle : x ≤ (k * 1024 + 511) * (1 / 1024) := by
    refine hx.le_of_le hupper ?_
    have : count ≤ k * 1000 + 499 := by omega
    have : (count : ℚ) ≤ k * 1000 + 499 := by exact_mod_cast this
    linarith
  have hxge : (k : ℚ) ≤ x + 1 / 2 := by
    rcases Nat.eq_zero_or_pos k with hzero | hpos
    · have hxnonneg : 0 ≤ x :=
        hx.ge_of_ge ⟨0, 0, by norm_num, by norm_num, by simp⟩ (by positivity)
      rw [hzero]
      push_cast
      linarith
    · have hlower : OnGrid ((2 * k - 1 : ℕ) * 2 ^ (-1 : ℤ)) := ⟨_, _, by omega, by norm_num, rfl⟩
      have hmiddle : ((2 * k - 1 : ℕ) : ℚ) * 2 ^ (-1 : ℤ) = k - 1 / 2 := by
        push_cast [Nat.cast_sub (by omega : 1 ≤ 2 * k)]
        norm_num
        ring
      have hge : (k : ℚ) - 1 / 2 ≤ x := by
        refine hx.ge_of_ge (hmiddle ▸ hlower) ?_
        have : k * 1000 ≤ count + 500 := by omega
        have : (k : ℚ) * 1000 ≤ count + 500 := by exact_mod_cast this
        linarith
      linarith
  rcases halfUp?_of_written hx.onGrid hwritten with ⟨_, y, hy, _, hsome⟩ | ⟨hlarge, _⟩
  · have hyge := hy.ge_of_ge hwhole hxge
    have hyle := hy.le_of_le hsumUpper (by linarith)
    have hfloor : ⌊y⌋ = k := by
      rw [Int.floor_eq_iff]
      push_cast
      constructor <;> linarith
    rw [thousands_of_some hsome, hfloor, Int.toNat_natCast]
  · -- the quotient is far below the infinities
    have hkle : (k : ℚ) ≤ 2 ^ 52 := by exact_mod_cast (by omega : k ≤ 2 ^ 52)
    have hfar : (2 : ℚ) ^ 53 * 1 ≤ tooLarge := by
      rw [tooLarge_eq 53 (by norm_num)]
      gcongr
      exact one_le_zpow₀ (by norm_num) (by norm_num)
    linarith

/-! ## The marker -/

theorem length_toString_mono {a b : ℕ} (h : a ≤ b) : (toString a).length ≤ (toString b).length := by
  have hlength : ∀ n : ℕ, (toString n).length = (Nat.toDigits 10 n).length := by
    intro n
    rw [Nat.toString_eq_repr, Nat.repr_eq_ofList_toDigits, String.length_ofList]
  rw [hlength, hlength]
  have hpos : 0 < (Nat.toDigits 10 b).length := List.length_pos_of_ne_nil Nat.toDigits_ne_nil
  rw [Nat.length_toDigits_le_iff (by norm_num) hpos]
  exact h.trans_lt ((Nat.length_toDigits_le_iff (by norm_num) hpos).mp le_rfl)

/-- **A marker for more characters is not shorter.** -/
theorem length_omissionMarker_mono {count count' : ℕ} (h : count ≤ count') :
    (omissionMarker count).length ≤ (omissionMarker count').length := by
  have hsize := length_toString_mono (max_le_max_left 1 (thousands_mono h))
  simp only [omissionMarker, String.length_append]
  omega

end Lintel.Report
