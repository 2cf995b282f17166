import Lintel.Number.Binary64
import Mathlib.Algebra.Order.Field.Power
import Mathlib.Algebra.Order.Floor.Ring
import Mathlib.Data.Rat.Floor
import Mathlib.Tactic.FieldSimp
import Mathlib.Tactic.Linarith
import Mathlib.Tactic.NormNum
import Mathlib.Tactic.Positivity
import Mathlib.Tactic.Ring

/-!
# Rounding to binary numbers

A quotient is rounded to the nearest number of a grid: the numbers with a mantissa of 53 bits and an
exponent of at least -1074.

* `OnGrid`, `IsNearest`: the grid, and a number of it to which no other one is preferred;
  `IsNearest.lt_imp_le`, `IsNearest.le_of_le`, `IsNearest.ge_of_ge`: rounding keeps the order;
* `abs_sub_roundDiv_le`, `gridExponent_bounds`: the mantissa is the nearest whole number, on the finest
  grid on which it has 53 bits;
* `Normal`, `Normal.unique`: a number is written with one mantissa and one exponent;
* **`ofRatio_isNearest`**: a quotient becomes the nearest number, or an infinity from 2^1024 on;
* `ofInt_isNearest`, `add_isNearest`, `mul_isNearest`: so do whole numbers, sums and products;
  `floor?_finite`: the floor is that of the value.
-/

namespace Lintel.Number.Binary64

/-! ## The grid -/

/-- The number has a mantissa of 53 bits and an exponent that is not too small; it may be large. -/
def OnGrid (q : ℚ) : Prop := ∃ (m : ℕ) (e : ℤ), m ≤ 2 ^ 53 ∧ -1074 ≤ e ∧ q = m * 2 ^ e

/-- No number of the grid is nearer to `q` than `v`. -/
structure IsNearest (q v : ℚ) : Prop where
  onGrid : OnGrid v
  le : ∀ w, OnGrid w → |q - v| ≤ |q - w|

namespace IsNearest

variable {q q' v v' w : ℚ}

theorem middle_le (hlt : w < v) (h : |q - v| ≤ |q - w|) : v + w ≤ 2 * q := by
  rcases abs_cases (q - v) with ⟨hv, _⟩ | ⟨hv, _⟩ <;>
    rcases abs_cases (q - w) with ⟨hw, _⟩ | ⟨hw, _⟩ <;>
    linarith

theorem le_middle (hlt : v < w) (h : |q - v| ≤ |q - w|) : 2 * q ≤ v + w := by
  rcases abs_cases (q - v) with ⟨hv, _⟩ | ⟨hv, _⟩ <;>
    rcases abs_cases (q - w) with ⟨hw, _⟩ | ⟨hw, _⟩ <;>
    linarith

/-- **Rounding keeps the order**; how a tie is broken plays no part. -/
theorem lt_imp_le (h : IsNearest q v) (h' : IsNearest q' v') (hlt : q < q') : v ≤ v' := by
  by_contra hnot
  have hback : v' < v := not_le.mp hnot
  have hlow := middle_le hback (h.le v' h'.onGrid)
  have hhigh := le_middle hback (h'.le v h.onGrid)
  linarith

theorem eq_of_onGrid (h : IsNearest q v) (hq : OnGrid q) : v = q := by
  have hzero : |q - v| ≤ 0 := by simpa using h.le q hq
  have hsub : q - v = 0 := abs_eq_zero.mp (le_antisymm hzero (abs_nonneg _))
  linarith

theorem of_onGrid (hq : OnGrid q) : IsNearest q q :=
  ⟨hq, fun w _ => by simp⟩

/-- A number of the grid stays above what is rounded below it. -/
theorem le_of_le (h : IsNearest q v) (hw : OnGrid w) (hle : q ≤ w) : v ≤ w := by
  rcases hle.eq_or_lt with rfl | hlt
  · exact (h.eq_of_onGrid hw).le
  · exact h.lt_imp_le (of_onGrid hw) hlt

/-- A number of the grid stays below what is rounded above it. -/
theorem ge_of_ge (h : IsNearest q v) (hw : OnGrid w) (hle : w ≤ q) : w ≤ v := by
  rcases hle.eq_or_lt with rfl | hlt
  · exact (h.eq_of_onGrid hw).ge
  · exact (of_onGrid hw).lt_imp_le h hlt

end IsNearest

/-! ## Whole mantissas -/

theorem abs_sub_le_of_le_half {x : ℚ} {n : ℕ} (h : |x - n| ≤ 1 / 2) (k : ℕ) :
    |x - n| ≤ |x - k| := by
  rcases eq_or_ne k n with rfl | hne
  · rfl
  have hapart : (1 : ℚ) ≤ |(k : ℚ) - n| := by
    have hint : (1 : ℤ) ≤ |(k : ℤ) - n| := Int.one_le_abs (sub_ne_zero.mpr (by exact_mod_cast hne))
    exact_mod_cast hint
  have htriangle : |(k : ℚ) - n| ≤ |x - n| + |x - k| := by
    calc |(k : ℚ) - n| = |(x - n) - (x - k)| := by ring_nf
      _ ≤ |x - n| + |x - k| := abs_sub _ _
  linarith

theorem abs_sub_roundDiv_le (num : ℕ) {den : ℕ} (hden : 0 < den) :
    |(num : ℚ) / den - roundDiv num den| ≤ 1 / 2 := by
  have hpos : (0 : ℚ) < den := by exact_mod_cast hden
  have hrem : num % den < den := Nat.mod_lt _ hden
  have hquot : (num : ℚ) / den = (num / den : ℕ) + (num % den : ℕ) / (den : ℚ) := by
    rw [div_eq_iff hpos.ne', add_mul, div_mul_cancel₀ _ hpos.ne']
    exact_mod_cast (Nat.div_add_mod' num den).symm
  rw [hquot, roundDiv]
  simp only [Bool.or_eq_true, Bool.and_eq_true, decide_eq_true_eq, beq_iff_eq]
  generalize num / den = whole at *
  generalize num % den = rest at *
  split_ifs with hup
  · have hge : (1 : ℚ) / 2 ≤ rest / (den : ℚ) := by
      have hhalf : (den : ℚ) ≤ 2 * rest := by exact_mod_cast (by omega : den ≤ 2 * rest)
      rw [le_div_iff₀ hpos]
      linarith
    have hle : (rest : ℚ) / den ≤ 1 := by
      rw [div_le_one hpos]
      exact_mod_cast hrem.le
    push_cast
    rw [abs_le]
    constructor <;> linarith
  · have hle : (rest : ℚ) / den ≤ 1 / 2 := by
      have hhalf : 2 * (rest : ℚ) ≤ den := by exact_mod_cast (by omega : 2 * rest ≤ den)
      rw [div_le_iff₀ hpos]
      linarith
    have hge : (0 : ℚ) ≤ rest / (den : ℚ) := by positivity
    rw [abs_le]
    constructor <;> linarith

theorem le_roundDiv {num den k : ℕ} (hden : 0 < den) (h : (k : ℚ) ≤ (num : ℚ) / den) :
    k ≤ roundDiv num den := by
  have hk : k ≤ num / den := by
    rw [Nat.le_div_iff_mul_le hden]
    rw [le_div_iff₀ (by exact_mod_cast hden)] at h
    exact_mod_cast h
  have hle : num / den ≤ roundDiv num den := by
    simp only [roundDiv]
    split_ifs <;> omega
  omega

theorem roundDiv_le {num den k : ℕ} (hden : 0 < den) (h : (num : ℚ) / den < k) :
    roundDiv num den ≤ k := by
  have hk : num / den < k := by
    rw [Nat.div_lt_iff_lt_mul hden]
    rw [div_lt_iff₀ (by exact_mod_cast hden)] at h
    exact_mod_cast h
  simp only [roundDiv]
  split_ifs <;> omega

/-! ## The exponent of the grid -/

theorem powerRatio_pos (e : ℤ) : 0 < (powerRatio e).1 ∧ 0 < (powerRatio e).2 := by
  rw [powerRatio]
  split_ifs
  · exact ⟨Nat.pow_pos (by norm_num), one_pos⟩
  · exact ⟨one_pos, Nat.pow_pos (by norm_num)⟩

theorem powerRatio_eq (e : ℤ) : ((powerRatio e).1 : ℚ) / (powerRatio e).2 = 2 ^ e := by
  rw [powerRatio]
  split_ifs with h
  · obtain ⟨n, rfl⟩ := Int.eq_ofNat_of_zero_le h
    simp
  · obtain ⟨n, hn⟩ := Int.eq_ofNat_of_zero_le (by omega : 0 ≤ -e)
    obtain rfl : e = -(n : ℤ) := by omega
    simp

theorem scaled_eq (num den : ℕ) (e : ℤ) :
    ((num * (powerRatio e).2 : ℕ) : ℚ) / (den * (powerRatio e).1 : ℕ) = (num : ℚ) / den / 2 ^ e := by
  have hpos := powerRatio_pos e
  have hup : ((powerRatio e).1 : ℚ) ≠ 0 := by exact_mod_cast hpos.1.ne'
  have hdown : ((powerRatio e).2 : ℚ) ≠ 0 := by exact_mod_cast hpos.2.ne'
  rw [← powerRatio_eq]
  push_cast
  field_simp

theorem log2_bounds {n : ℕ} (hn : 0 < n) :
    (2 : ℚ) ^ (n.log2 : ℤ) ≤ n ∧ (n : ℚ) < 2 ^ ((n.log2 : ℤ) + 1) := by
  refine ⟨?_, ?_⟩
  · rw [zpow_natCast]
    exact_mod_cast Nat.log2_self_le hn.ne'
  · rw [show ((n.log2 : ℤ) + 1) = ((n.log2 + 1 : ℕ) : ℤ) by push_cast; rfl, zpow_natCast]
    exact_mod_cast Nat.lt_log2_self

theorem quotient_bounds {num den : ℕ} (hnum : 0 < num) (hden : 0 < den) :
    (2 : ℚ) ^ ((num.log2 : ℤ) - den.log2 - 1) ≤ (num : ℚ) / den ∧
      (num : ℚ) / den < 2 ^ ((num.log2 : ℤ) - den.log2 + 1) := by
  obtain ⟨hnumLow, hnumHigh⟩ := log2_bounds hnum
  obtain ⟨hdenLow, hdenHigh⟩ := log2_bounds hden
  have hpos : (0 : ℚ) < den := by exact_mod_cast hden
  have two_ne : (2 : ℚ) ≠ 0 := by norm_num
  refine ⟨?_, ?_⟩
  · rw [le_div_iff₀ hpos]
    calc (2 : ℚ) ^ ((num.log2 : ℤ) - den.log2 - 1) * den
        ≤ 2 ^ ((num.log2 : ℤ) - den.log2 - 1) * 2 ^ ((den.log2 : ℤ) + 1) := by gcongr
      _ = 2 ^ (num.log2 : ℤ) := by rw [← zpow_add₀ two_ne]; congr 1; ring
      _ ≤ num := hnumLow
  · rw [div_lt_iff₀ hpos]
    calc (num : ℚ) < 2 ^ ((num.log2 : ℤ) + 1) := hnumHigh
      _ = 2 ^ ((num.log2 : ℤ) - den.log2 + 1) * 2 ^ (den.log2 : ℤ) := by
        rw [← zpow_add₀ two_ne]; congr 1; ring
      _ ≤ 2 ^ ((num.log2 : ℤ) - den.log2 + 1) * den := by gcongr

/-- **The grid is the finest one on which the quotient has a mantissa of 53 bits.** -/
theorem gridExponent_bounds {num den : ℕ} (hnum : 0 < num) (hden : 0 < den) :
    -1074 ≤ gridExponent num den ∧
      (num : ℚ) / den < 2 ^ 53 * 2 ^ gridExponent num den ∧
      (gridExponent num den = -1074 ∨ 2 ^ 52 * 2 ^ gridExponent num den ≤ (num : ℚ) / den) := by
  obtain ⟨hlow, hhigh⟩ := quotient_bounds hnum hden
  have two_ne : (2 : ℚ) ≠ 0 := by norm_num
  set guess : ℤ := max (-1074) ((num.log2 : ℤ) - den.log2 - 53) with hguess
  have hden' : 0 < den * (powerRatio guess).1 := Nat.mul_pos hden (powerRatio_pos guess).1
  have hpow : (0 : ℚ) < 2 ^ guess := zpow_pos (by norm_num) _
  -- the guess is one too small where the mantissa would have 54 bits
  have htest : Nat.pow 2 53 ≤ num * (powerRatio guess).2 / (den * (powerRatio guess).1) ↔
      2 ^ 53 * 2 ^ guess ≤ (num : ℚ) / den := by
    rw [Nat.le_div_iff_mul_le hden', ← le_div_iff₀ hpow, ← scaled_eq,
      le_div_iff₀ (by exact_mod_cast hden')]
    exact ⟨fun h => by exact_mod_cast h, fun h => by exact_mod_cast h⟩
  have hgrid : gridExponent num den =
      if 2 ^ 53 * 2 ^ guess ≤ (num : ℚ) / den then guess + 1 else guess := by
    rw [gridExponent]
    exact if_congr htest rfl rfl
  have hnext : (2 : ℚ) ^ (guess + 1) = 2 * 2 ^ guess := by rw [zpow_add_one₀ two_ne]; ring
  rw [hgrid]
  split_ifs with h
  · refine ⟨by omega, ?_, .inr (by rw [hnext]; linarith)⟩
    calc (num : ℚ) / den < 2 ^ ((num.log2 : ℤ) - den.log2 + 1) := hhigh
      _ ≤ 2 ^ (54 + guess) := zpow_le_zpow_right₀ (by norm_num) (by omega)
      _ = 2 ^ 53 * 2 ^ (guess + 1) := by rw [zpow_add₀ two_ne, hnext]; norm_num; ring
  · refine ⟨by omega, not_le.mp h, ?_⟩
    rcases le_total ((num.log2 : ℤ) - den.log2 - 53) (-1074) with hsmall | hlarge
    · exact .inl (by omega)
    · right
      calc (2 : ℚ) ^ 52 * 2 ^ guess = 2 ^ ((52 : ℤ) + guess) := by rw [zpow_add₀ two_ne]; norm_num
        _ = 2 ^ ((num.log2 : ℤ) - den.log2 - 1) := by congr 1; omega
        _ ≤ (num : ℚ) / den := hlow

/-! ## Numbers with one form -/

/-- A mantissa of 53 bits, or of fewer at the least exponent; zero has no exponent. -/
def Normal (m : ℕ) (e : ℤ) : Prop :=
  (m = 0 ∧ e = 0) ∨ (0 < m ∧ m < 2 ^ 53 ∧ -1074 ≤ e ∧ (e = -1074 ∨ 2 ^ 52 ≤ m))

namespace Normal

variable {m m' : ℕ} {e e' : ℤ}

theorem exponent_le (h : Normal m e) (h' : Normal m' e') (hpos : 0 < m)
    (heq : (m : ℚ) * 2 ^ e = m' * 2 ^ e') : e' ≤ e := by
  by_contra hnot
  have hpow : ∀ k : ℤ, (0 : ℚ) < 2 ^ k := fun k => zpow_pos (by norm_num) k
  rcases h with ⟨rfl, rfl⟩ | ⟨_, hlt, hleast, _⟩
  · exact absurd hpos (lt_irrefl 0)
  rcases h' with ⟨rfl, rfl⟩ | ⟨_, _, _, hnormal⟩
  · have : (0 : ℚ) < m * 2 ^ e := mul_pos (by exact_mod_cast hpos) (hpow e)
    simp only [Nat.cast_zero, zero_mul] at heq
    linarith
  · have hmantissa : 2 ^ 52 ≤ m' := hnormal.resolve_left (by omega)
    have hlarge : (2 : ℚ) ^ 53 * 2 ^ e ≤ m' * 2 ^ e' := by
      calc (2 : ℚ) ^ 53 * 2 ^ e = (2 : ℚ) ^ 52 * 2 ^ (e + 1) := by
            rw [zpow_add_one₀ (by norm_num)]; ring
        _ ≤ (m' : ℚ) * 2 ^ e' := by
            gcongr
            · exact_mod_cast hmantissa
            · norm_num
            · omega
    have hsmall : (m : ℚ) * 2 ^ e < 2 ^ 53 * 2 ^ e := by
      have := hpow e
      gcongr
      exact_mod_cast hlt
    linarith

/-- **A number is written in one way.** -/
theorem unique (h : Normal m e) (h' : Normal m' e')
    (heq : (m : ℚ) * 2 ^ e = m' * 2 ^ e') : m = m' ∧ e = e' := by
  have hpow : ∀ k : ℤ, (2 : ℚ) ^ k ≠ 0 := fun k => zpow_ne_zero k (by norm_num)
  have hzero : m = 0 ↔ m' = 0 := by
    constructor
    · rintro rfl
      simpa [hpow] using heq.symm
    · rintro rfl
      simpa [hpow] using heq
  rcases Nat.eq_zero_or_pos m with hm | hm
  · have hm' := hzero.mp hm
    refine ⟨by omega, ?_⟩
    rcases h with ⟨_, rfl⟩ | ⟨hpos, _⟩
    · rcases h' with ⟨_, rfl⟩ | ⟨hpos', _⟩
      · rfl
      · omega
    · omega
  · have hm' : 0 < m' := Nat.pos_of_ne_zero fun h0 => hm.ne' (hzero.mpr h0)
    obtain rfl : e = e' := le_antisymm (h'.exponent_le h hm' heq.symm) (h.exponent_le h' hm heq)
    exact ⟨by exact_mod_cast mul_right_cancel₀ (hpow e) heq, rfl⟩

end Normal

/-! ## Rounded quotients -/

theorem isNearest_of_grid {q : ℚ} {m : ℕ} {e : ℤ} (hhalf : |q / 2 ^ e - m| ≤ 1 / 2)
    (hm : m ≤ 2 ^ 53) (hleast : -1074 ≤ e) (hfine : e = -1074 ∨ 2 ^ 52 * 2 ^ e ≤ q) :
    IsNearest q (m * 2 ^ e) := by
  have hpow : (0 : ℚ) < 2 ^ e := zpow_pos (by norm_num) e
  have hscale : ∀ x : ℚ, |q - x * 2 ^ e| = |q / 2 ^ e - x| * 2 ^ e := by
    intro x
    rw [← abs_of_pos hpow, ← abs_mul, abs_of_pos hpow, sub_mul, div_mul_cancel₀ _ hpow.ne']
  -- on the grid of the exponent the whole mantissa is the nearest
  have hsame : ∀ k : ℕ, |q - m * 2 ^ e| ≤ |q - k * 2 ^ e| := by
    intro k
    rw [hscale, hscale]
    exact mul_le_mul_of_nonneg_right (abs_sub_le_of_le_half hhalf k) hpow.le
  refine ⟨⟨m, e, hm, hleast, rfl⟩, ?_⟩
  rintro w ⟨k, f, hk, hf, rfl⟩
  rcases le_or_gt e f with hcoarse | hfiner
  · obtain ⟨d, hd⟩ := Int.eq_ofNat_of_zero_le (by omega : 0 ≤ f - e)
    have hw : (k : ℚ) * 2 ^ f = (k * 2 ^ d : ℕ) * 2 ^ e := by
      rw [show f = d + e by omega, zpow_add₀ (by norm_num), zpow_natCast]
      push_cast
      ring
    rw [hw]
    exact hsame _
  · -- a number with a finer grid lies below the first number with a mantissa of 53 bits
    have hq : 2 ^ 52 * 2 ^ e ≤ q := hfine.resolve_left (by omega)
    have hbelow : (k : ℚ) * 2 ^ f ≤ 2 ^ 52 * 2 ^ e := by
      calc (k : ℚ) * 2 ^ f ≤ (2 : ℚ) ^ 53 * 2 ^ (e - 1) := by
            gcongr
            · exact_mod_cast hk
            · norm_num
            · omega
        _ = 2 ^ 52 * 2 ^ e := by rw [zpow_sub_one₀ (by norm_num)]; ring
    have hnear : |q - m * 2 ^ e| ≤ |q - 2 ^ 52 * 2 ^ e| := by exact_mod_cast hsame (2 ^ 52)
    rw [abs_of_nonneg (by linarith : 0 ≤ q - k * 2 ^ f)]
    rw [abs_of_nonneg (by linarith : 0 ≤ q - 2 ^ 52 * 2 ^ e)] at hnear
    linarith

/-- The whole number that is the mantissa of a quotient on its grid. -/
def gridMantissa (num den : ℕ) : ℕ :=
  roundDiv (num * (powerRatio (gridExponent num den)).2) (den * (powerRatio (gridExponent num den)).1)

theorem gridMantissa_bounds {num den : ℕ} (hnum : 0 < num) (hden : 0 < den) :
    |(num : ℚ) / den / 2 ^ gridExponent num den - gridMantissa num den| ≤ 1 / 2 ∧
      gridMantissa num den ≤ 2 ^ 53 ∧
      (gridExponent num den = -1074 ∨ 2 ^ 52 ≤ gridMantissa num den) := by
  obtain ⟨_, hhigh, hlow⟩ := gridExponent_bounds hnum hden
  set e := gridExponent num den with he
  have hpow : (0 : ℚ) < 2 ^ e := zpow_pos (by norm_num) e
  have hden' : 0 < den * (powerRatio e).1 := Nat.mul_pos hden (powerRatio_pos e).1
  have hm : gridMantissa num den = roundDiv (num * (powerRatio e).2) (den * (powerRatio e).1) := rfl
  rw [hm, ← scaled_eq]
  refine ⟨abs_sub_roundDiv_le _ hden', roundDiv_le hden' ?_, hlow.imp_right fun h => ?_⟩
  · rw [scaled_eq, div_lt_iff₀ hpow]
    exact_mod_cast hhigh
  · refine le_roundDiv hden' ?_
    rw [scaled_eq, le_div_iff₀ hpow]
    exact_mod_cast h

/-- The least number of the grid that is too large. -/
def tooLarge : ℚ := 2 ^ 1024

theorem tooLarge_pos : 0 < tooLarge := pow_pos (by norm_num) _

theorem tooLarge_eq (k : ℕ) (hk : k ≤ 1024) : tooLarge = 2 ^ k * 2 ^ (1024 - k : ℤ) := by
  rw [tooLarge, show (1024 - k : ℤ) = (1024 - k : ℕ) by omega, zpow_natCast, ← pow_add,
    Nat.add_sub_cancel' hk]

/-- A number in the form in which it is written, or an infinity if it is too large. -/
inductive Written (v : ℚ) : Binary64 → Prop
  | finite {m : ℕ} {e : ℤ} (normal : Normal m e) (eq : v = m * 2 ^ e) (small : v < tooLarge) :
      Written v (.finite false m e)
  | infinite (large : tooLarge ≤ v) : Written v (.infinite false)

theorem Written.unique {v : ℚ} {value value' : Binary64} (h : Written v value)
    (h' : Written v value') : value = value' := by
  cases h with
  | infinite large =>
    cases h' with
    | infinite => rfl
    | finite _ _ small => exact absurd small (not_lt.mpr large)
  | finite normal eq small =>
    cases h' with
    | infinite large => exact absurd small (not_lt.mpr large)
    | finite normal' eq' small' =>
      obtain ⟨rfl, rfl⟩ := normal.unique normal' (eq.symm.trans eq')
      rfl

theorem written_of_mantissa {m : ℕ} {e : ℤ} (hpos : 0 < m) (hlt : m < 2 ^ 53) (hleast : -1074 ≤ e)
    (hfine : e = -1074 ∨ 2 ^ 52 ≤ m) :
    Written (m * 2 ^ e) (if 971 < e then .infinite false else .finite false m e) := by
  split_ifs with hbig
  · refine .infinite ?_
    have hm : 2 ^ 52 ≤ m := hfine.resolve_left (by omega)
    calc tooLarge = (2 : ℚ) ^ 52 * 2 ^ (972 : ℤ) := tooLarge_eq 52 (by norm_num)
      _ ≤ (m : ℚ) * 2 ^ e := by
        gcongr
        · exact_mod_cast hm
        · norm_num
        · omega
  · refine .finite (.inr ⟨hpos, hlt, hleast, hfine⟩) rfl ?_
    calc (m : ℚ) * 2 ^ e < (2 : ℚ) ^ 53 * 2 ^ e := by
          have : (0 : ℚ) < 2 ^ e := zpow_pos (by norm_num) e
          gcongr
          exact_mod_cast hlt
      _ ≤ (2 : ℚ) ^ 53 * 2 ^ (971 : ℤ) := by
          gcongr
          · norm_num
          · omega
      _ = tooLarge := (tooLarge_eq 53 (by norm_num)).symm

theorem ofRatio_eq {num den : ℕ} (hnum : 0 < num) (hden : 0 < den) :
    ofRatio false num den =
      if gridMantissa num den = 0 then zero false
      else if gridMantissa num den = 2 ^ 53 then
        if 971 < gridExponent num den + 1 then .infinite false
        else .finite false (2 ^ 52) (gridExponent num den + 1)
      else if 971 < gridExponent num den then .infinite false
      else .finite false (gridMantissa num den) (gridExponent num den) := by
  by_cases hzero : gridMantissa num den = 0 <;> by_cases hfull : gridMantissa num den = 2 ^ 53 <;>
    simp only [hzero, hfull, if_true, if_false] <;>
    simp only [gridMantissa, Nat.reducePow] at hzero hfull <;>
    simp [ofRatio, gridMantissa, hnum.ne', hden.ne', hzero, hfull]

/-- **A quotient becomes the nearest number**, or an infinity if that is too large. -/
theorem ofRatio_isNearest (num : ℕ) {den : ℕ} (hden : 0 < den) :
    ∃ v, IsNearest ((num : ℚ) / den) v ∧ Written v (ofRatio false num den) := by
  rcases Nat.eq_zero_or_pos num with rfl | hnum
  · refine ⟨0, ?_, ?_⟩
    · simpa using IsNearest.of_onGrid ⟨0, 0, by norm_num, by norm_num, by norm_num⟩
    · exact .finite (.inl ⟨rfl, rfl⟩) (by simp) tooLarge_pos
  obtain ⟨hleast, _, hfine⟩ := gridExponent_bounds hnum hden
  obtain ⟨hhalf, hm, hmantissa⟩ := gridMantissa_bounds hnum hden
  have hnearest := isNearest_of_grid hhalf hm hleast hfine
  rw [ofRatio_eq hnum hden]
  generalize gridMantissa num den = m at *
  generalize gridExponent num den = e at *
  refine ⟨m * 2 ^ e, hnearest, ?_⟩
  by_cases hzero : m = 0
  · subst hzero
    rw [if_pos rfl]
    exact .finite (.inl ⟨rfl, rfl⟩) (by simp) (by simpa using tooLarge_pos)
  rw [if_neg hzero]
  by_cases hfull : m = 2 ^ 53
  · have hnext : (m : ℚ) * 2 ^ e = (2 ^ 52 : ℕ) * 2 ^ (e + 1) := by
      rw [hfull, zpow_add_one₀ (by norm_num)]
      push_cast
      ring
    rw [if_pos hfull, hnext]
    exact written_of_mantissa (by norm_num) (by norm_num) (by omega) (.inr le_rfl)
  · rw [if_neg hfull]
    exact written_of_mantissa (Nat.pos_of_ne_zero hzero) (by omega) hleast hmantissa

/-! ## Whole numbers -/

theorem value_nonneg (m : ℕ) (e : ℤ) : (0 : ℚ) ≤ m * 2 ^ e := by positivity

theorem lt_tooLarge_of_le {n : ℕ} (hroom : n ≤ 2 ^ 1023) : (n : ℚ) < tooLarge := by
  calc (n : ℚ) ≤ 2 ^ 1023 := by exact_mod_cast hroom
    _ < 2 ^ 1024 := pow_lt_pow_right₀ (by norm_num) (by norm_num)

/-- A whole number that is not too large becomes the nearest binary number. -/
theorem ofInt_isNearest {n : ℕ} (hroom : n ≤ 2 ^ 1023) :
    ∃ k f, ofInt n = .finite false k f ∧ Normal k f ∧ IsNearest (n : ℚ) (k * 2 ^ f) := by
  have hofInt : ofInt (n : ℤ) = ofRatio false n 1 := by
    rw [ofInt, Int.natAbs_natCast]
    congr 1
  obtain ⟨x, hx, hwritten⟩ := ofRatio_isNearest n one_pos
  rw [Nat.cast_one, div_one] at hx
  rw [hofInt]
  generalize ofRatio false n 1 = nearest at *
  cases hwritten with
  | @finite k f normal eq small => exact ⟨k, f, rfl, normal, eq ▸ hx⟩
  | infinite large =>
    have hgrid : OnGrid ((2 : ℚ) ^ 1023) :=
      ⟨1, 1023, by norm_num, by norm_num, by rw [Nat.cast_one, one_mul]; exact (zpow_natCast 2 1023).symm⟩
    have hle : x ≤ 2 ^ 1023 := hx.le_of_le hgrid (by exact_mod_cast hroom)
    have hless : (2 : ℚ) ^ 1023 < tooLarge := by exact_mod_cast lt_tooLarge_of_le le_rfl
    exact absurd (large.trans hle) (not_le.mpr hless)

/-! ## Sums and floors -/

theorem sizeRatio_eq (m : ℕ) (e : ℤ) :
    0 < (sizeRatio m e).2 ∧ ((sizeRatio m e).1 : ℚ) / (sizeRatio m e).2 = m * 2 ^ e := by
  refine ⟨(powerRatio_pos e).2, ?_⟩
  rw [← powerRatio_eq, sizeRatio]
  push_cast
  ring

theorem add_eq {m n : ℕ} {e f low : ℤ} {i j : ℕ} (hlow : min e f = low) (hi : e - low = i)
    (hj : f - low = j) :
    add (.finite false m e) (.finite false n f) =
      ofRatio false (sizeRatio (m * 2 ^ i + n * 2 ^ j) low).1
        (sizeRatio (m * 2 ^ i + n * 2 ^ j) low).2 := by
  have hwhole : (m : ℤ) * (Nat.pow 2 i : ℕ) + n * (Nat.pow 2 j : ℕ) =
      (m * 2 ^ i + n * 2 ^ j : ℕ) := by
    push_cast [Nat.pow_eq]
    rfl
  simp only [add, aligned, signed, Bool.false_eq_true, if_false, hlow, hi, hj, Int.toNat_natCast,
    hwhole]
  generalize m * 2 ^ i + n * 2 ^ j = s
  rcases Nat.eq_zero_or_pos s with rfl | hs
  · simp [sizeRatio, ofRatio]
  · have hsign : ¬ (s : ℤ) < 0 := by omega
    simp [ofScaled, hs.ne', hsign]

/-- **A sum becomes the nearest number**, or an infinity if that is too large. -/
theorem add_isNearest (m n : ℕ) (e f : ℤ) :
    ∃ v, IsNearest ((m : ℚ) * 2 ^ e + n * 2 ^ f) v ∧
      Written v (add (.finite false m e) (.finite false n f)) := by
  obtain ⟨low, hlow⟩ : ∃ low, min e f = low := ⟨_, rfl⟩
  obtain ⟨i, hi⟩ := Int.eq_ofNat_of_zero_le (by omega : 0 ≤ e - low)
  obtain ⟨j, hj⟩ := Int.eq_ofNat_of_zero_le (by omega : 0 ≤ f - low)
  have hsum : (m : ℚ) * 2 ^ e + n * 2 ^ f = (m * 2 ^ i + n * 2 ^ j : ℕ) * 2 ^ low := by
    rw [show e = i + low by omega, show f = j + low by omega, zpow_add₀ (by norm_num),
      zpow_add₀ (by norm_num), zpow_natCast, zpow_natCast]
    push_cast
    ring
  obtain ⟨hden, hratio⟩ := sizeRatio_eq (m * 2 ^ i + n * 2 ^ j) low
  rw [add_eq hlow hi hj, hsum, ← hratio]
  exact ofRatio_isNearest _ hden

/-- **A product becomes the nearest number**, or an infinity if that is too large. -/
theorem mul_isNearest (m n : ℕ) (e f : ℤ) :
    ∃ v, IsNearest ((m : ℚ) * 2 ^ e * (n * 2 ^ f)) v ∧
      Written v (mul (.finite false m e) (.finite false n f)) := by
  have hproduct : (m : ℚ) * 2 ^ e * (n * 2 ^ f) = (m * n : ℕ) * 2 ^ (e + f) := by
    rw [zpow_add₀ (by norm_num)]
    push_cast
    ring
  obtain ⟨hden, hratio⟩ := sizeRatio_eq (m * n) (e + f)
  have hmul : mul (.finite false m e) (.finite false n f) =
      ofRatio false (sizeRatio (m * n) (e + f)).1 (sizeRatio (m * n) (e + f)).2 := by
    rcases Nat.eq_zero_or_pos m with rfl | hm
    · simp [mul, sizeRatio, ofRatio]
    rcases Nat.eq_zero_or_pos n with rfl | hn
    · simp [mul, sizeRatio, ofRatio]
    · simp [mul, hm.ne', hn.ne']
  rw [hmul, hproduct, ← hratio]
  exact ofRatio_isNearest _ hden

/-- The floor is that of the value. -/
theorem floor?_finite (m : ℕ) (e : ℤ) :
    floor? (.finite false m e) = some ⌊(m : ℚ) * 2 ^ e⌋ := by
  obtain ⟨hden, hratio⟩ := sizeRatio_eq m e
  have hfloor : ⌊((sizeRatio m e).1 : ℚ) / (sizeRatio m e).2⌋ =
      ((sizeRatio m e).1 : ℤ).fdiv (sizeRatio m e).2 := by
    rw [Int.fdiv_eq_ediv_of_nonneg _ (by positivity), ← Rat.floor_intCast_div_natCast,
      Int.cast_natCast]
  rw [← hratio, hfloor]
  rfl

end Lintel.Number.Binary64
