import Mathlib.Data.Int.Log
import Mathlib.Data.Rat.Floor
import Mathlib.Tactic

/-!
# Rounding to double precision

The rational numbers that are doubles, and the double nearest to a rational number, the even one in
the middle. The exponent has no upper bound here: beyond the greatest double the result stands for
an infinite one. Rounding is monotone, keeps what lies on its grid, and does not carry a double
times a thousand over a whole multiple of a thousand.
-/

namespace DoubleRounding

section Nearest

variable {q r : ℚ}

/-- The nearest integer, the even one in the middle. -/
def roundEven (q : ℚ) : ℤ :=
  if q - ⌊q⌋ < 1 / 2 then ⌊q⌋
  else if 1 / 2 < q - ⌊q⌋ then ⌊q⌋ + 1
  else if ⌊q⌋ % 2 = 0 then ⌊q⌋
  else ⌊q⌋ + 1

theorem roundEven_intCast (n : ℤ) : roundEven n = n := by
  have hfraction : (n : ℚ) - ⌊(n : ℚ)⌋ < 1 / 2 := by
    rw [Int.floor_intCast, sub_self]
    norm_num
  rw [roundEven, if_pos hfraction, Int.floor_intCast]

theorem floor_le_roundEven (q : ℚ) : ⌊q⌋ ≤ roundEven q := by
  unfold roundEven
  split_ifs <;> omega

theorem roundEven_le_floor_add_one (q : ℚ) : roundEven q ≤ ⌊q⌋ + 1 := by
  unfold roundEven
  split_ifs <;> omega

theorem abs_roundEven_sub_le (q : ℚ) : |(roundEven q : ℚ) - q| ≤ 1 / 2 := by
  have hlow := Int.floor_le q
  have hhigh := Int.lt_floor_add_one q
  unfold roundEven
  rw [abs_le]
  split_ifs with hless hmore heven
  · constructor <;> linarith
  · push_cast
    constructor <;> linarith
  · constructor <;> linarith
  · push_cast
    constructor <;> linarith

theorem roundEven_mono (h : q ≤ r) : roundEven q ≤ roundEven r := by
  rcases (Int.floor_le_floor h).lt_or_eq with hfloor | hfloor
  · have hq := roundEven_le_floor_add_one q
    have hr := floor_le_roundEven r
    omega
  · unfold roundEven
    rw [← hfloor]
    split_ifs with h1 h2 h3 h4 h5 h6 h7 h8 h9 <;> first | omega | (exfalso; linarith)

end Nearest

section Doubles

variable {q r : ℚ} {n : ℤ}

/-- A finite double. -/
def IsDouble (q : ℚ) : Prop :=
  ∃ mantissa exponent : ℤ, |mantissa| < 2 ^ 53 ∧ -1074 ≤ exponent ∧ exponent ≤ 971 ∧
    q = mantissa * 2 ^ exponent

/-- The exponent of the distance between the doubles around a number. -/
def unitExponent (q : ℚ) : ℤ := max (Int.log 2 |q| - 52) (-1074)

/-- The distance between the doubles around a number. -/
def unit (q : ℚ) : ℚ := 2 ^ unitExponent q

/-- The nearest double. -/
def toDouble (q : ℚ) : ℚ := roundEven (q / unit q) * unit q

theorem unit_pos (q : ℚ) : 0 < unit q := zpow_pos (by norm_num) _

/-- What lies on the grid of a number bounds its double if it bounds the number. -/
theorem toDouble_le (hr : r = n * unit q) (h : q ≤ r) : toDouble q ≤ r := by
  have hpos := unit_pos q
  have hle : q / unit q ≤ n := by
    rw [div_le_iff₀ hpos, ← hr]
    exact h
  have hround := roundEven_mono hle
  rw [roundEven_intCast] at hround
  rw [toDouble, hr]
  exact mul_le_mul_of_nonneg_right (by exact_mod_cast hround) hpos.le

theorem le_toDouble (hr : r = n * unit q) (h : r ≤ q) : r ≤ toDouble q := by
  have hpos := unit_pos q
  have hle : (n : ℚ) ≤ q / unit q := by
    rw [le_div_iff₀ hpos, ← hr]
    exact h
  have hround := roundEven_mono hle
  rw [roundEven_intCast] at hround
  rw [toDouble, hr]
  exact mul_le_mul_of_nonneg_right (by exact_mod_cast hround) hpos.le

theorem abs_toDouble_sub_le (q : ℚ) : |toDouble q - q| ≤ unit q / 2 := by
  have hpos := unit_pos q
  have hfactor : toDouble q - q = ((roundEven (q / unit q) : ℚ) - q / unit q) * unit q := by
    rw [toDouble, sub_mul, div_mul_cancel₀ _ hpos.ne']
  rw [hfactor, abs_mul, abs_of_pos hpos]
  have hround := mul_le_mul_of_nonneg_right (abs_roundEven_sub_le (q / unit q)) hpos.le
  linarith

theorem toDouble_zero : toDouble 0 = 0 := by
  have hzero : roundEven 0 = 0 := by
    have hround := roundEven_intCast 0
    rwa [Int.cast_zero] at hround
  rw [toDouble, zero_div, hzero, Int.cast_zero, zero_mul]

theorem toDouble_nonneg (h : 0 ≤ q) : 0 ≤ toDouble q :=
  le_toDouble (n := 0) (by rw [Int.cast_zero, zero_mul]) h

/-- A power of two on the grid is a whole number of units. -/
theorem zpow_eq_unit {k : ℤ} (h : unitExponent q ≤ k) :
    (2 : ℚ) ^ k = ((2 ^ (k - unitExponent q).toNat : ℤ) : ℚ) * unit q := by
  have hexponent : ((k - unitExponent q).toNat : ℤ) = k - unitExponent q := by omega
  rw [unit]
  push_cast
  rw [← zpow_natCast, hexponent, ← zpow_add₀ (by norm_num)]
  congr 1
  omega

theorem intCast_eq_unit (h : unitExponent q ≤ 0) (n : ℤ) :
    (n : ℚ) = ((n * 2 ^ (0 - unitExponent q).toNat : ℤ) : ℚ) * unit q := by
  have hone := zpow_eq_unit h
  rw [zpow_zero] at hone
  calc (n : ℚ) = n * 1 := (mul_one _).symm
    _ = n * (((2 ^ (0 - unitExponent q).toNat : ℤ) : ℚ) * unit q) := by rw [← hone]
    _ = ((n * 2 ^ (0 - unitExponent q).toNat : ℤ) : ℚ) * unit q := by push_cast; ring

theorem unitExponent_mono (hq : 0 < q) (h : q ≤ r) : unitExponent q ≤ unitExponent r := by
  have hlog := Int.log_mono_right (b := 2) (abs_pos.mpr hq.ne')
    (abs_le_abs_of_nonneg hq.le h)
  unfold unitExponent
  omega

/-- Rounding is monotone. -/
theorem toDouble_mono (hq : 0 ≤ q) (h : q ≤ r) : toDouble q ≤ toDouble r := by
  rcases hq.lt_or_eq with hpos | rfl
  swap
  · rw [toDouble_zero]
    exact toDouble_nonneg h
  have hrpos := hpos.trans_le h
  rcases (unitExponent_mono hpos h).lt_or_eq with hlt | heq
  · -- a power of two lies between them
    have hqlog := Int.lt_zpow_succ_log_self (b := 2) (by norm_num) |q|
    have hrlog := Int.zpow_log_le_self (b := 2) (by norm_num) (abs_pos.mpr hrpos.ne')
    rw [abs_of_pos hpos] at hqlog
    rw [abs_of_pos hrpos] at hrlog
    have hunits : unitExponent q = max (Int.log 2 q - 52) (-1074) ∧
        unitExponent r = max (Int.log 2 r - 52) (-1074) := by
      rw [unitExponent, unitExponent, abs_of_pos hpos, abs_of_pos hrpos]
      exact ⟨rfl, rfl⟩
    have hlogs : Int.log 2 q + 1 ≤ Int.log 2 r := by omega
    have hbetween : q ≤ (2 : ℚ) ^ Int.log 2 r := by
      refine hqlog.le.trans ?_
      exact_mod_cast zpow_le_zpow_right₀ (by norm_num : (1 : ℚ) ≤ 2) hlogs
    exact (toDouble_le (zpow_eq_unit (by omega)) hbetween).trans
      (le_toDouble (zpow_eq_unit (by omega)) (by exact_mod_cast hrlog))
  · have hsame : unit q = unit r := by rw [unit, unit, heq]
    have hround := roundEven_mono (div_le_div_of_nonneg_right h (unit_pos r).le)
    rw [toDouble, toDouble, hsame]
    exact mul_le_mul_of_nonneg_right (by exact_mod_cast hround) (unit_pos r).le

/-- A double is a whole number of its units. -/
theorem IsDouble.eq_unit (h : IsDouble q) (hq : 0 < q) : ∃ n : ℤ, q = n * unit q := by
  obtain ⟨mantissa, exponent, hmantissa, hlow, -, rfl⟩ := h
  by_cases hle : unitExponent (mantissa * 2 ^ exponent : ℚ) ≤ exponent
  · refine ⟨mantissa * 2 ^ (exponent -
      unitExponent (mantissa * 2 ^ exponent : ℚ)).toNat, ?_⟩
    conv_lhs => rw [zpow_eq_unit hle]
    push_cast
    ring
  · -- the mantissa of a number that is below its unit has more than 53 bits
    exfalso
    have hlog := Int.zpow_log_le_self (b := 2) (by norm_num) (abs_pos.mpr hq.ne')
    have hexponent : exponent + 53 ≤ Int.log 2 |(mantissa * 2 ^ exponent : ℚ)| := by
      unfold unitExponent at hle
      omega
    have hpow : (2 : ℚ) ^ (exponent + 53) ≤
        (2 : ℚ) ^ Int.log 2 |(mantissa * 2 ^ exponent : ℚ)| :=
      zpow_le_zpow_right₀ (by norm_num) hexponent
    have hpos : (0 : ℚ) < 2 ^ exponent := zpow_pos (by norm_num) _
    have hbound : (2 : ℚ) ^ (exponent + 53) ≤ mantissa * 2 ^ exponent := by
      refine hpow.trans ?_
      rw [abs_of_pos hq] at hlog ⊢
      exact_mod_cast hlog
    rw [zpow_add₀ (by norm_num), mul_comm] at hbound
    have hlarge : ((2 : ℚ) ^ (53 : ℤ)) ≤ mantissa := le_of_mul_le_mul_right hbound hpos
    have hcast : (2 ^ 53 : ℤ) ≤ mantissa := by exact_mod_cast hlarge
    exact absurd (hcast.trans (le_abs_self mantissa)) (not_le.mpr hmantissa)

theorem unitExponent_nonpos (hq : 0 < q) (h : q < 2 ^ 53) : unitExponent q ≤ 0 := by
  have hlog : Int.log 2 q < 53 := by
    rw [← Int.lt_zpow_iff_log_lt (b := 2) (by norm_num) hq]
    exact_mod_cast h
  unfold unitExponent
  rw [abs_of_pos hq]
  omega

theorem unitExponent_thousand (hq : 0 < q) : unitExponent (q * 1000) ≤ unitExponent q + 10 := by
  have hlog : Int.log 2 (q * 1000) < Int.log 2 q + 11 := by
    rw [← Int.lt_zpow_iff_log_lt (b := 2) (by norm_num) (by linarith)]
    have hlt := Int.lt_zpow_succ_log_self (b := 2) (by norm_num) q
    have hsplit : ((2 : ℕ) : ℚ) ^ (Int.log 2 q + 11) = (2 : ℕ) ^ (Int.log 2 q + 1) * 1024 := by
      have hsum : Int.log 2 q + 11 = Int.log 2 q + 1 + 10 := by omega
      rw [hsum, zpow_add₀ (by norm_num)]
      norm_num
    rw [hsplit]
    have hpos : (0 : ℚ) < (2 : ℕ) ^ (Int.log 2 q + 1) := zpow_pos (by norm_num) _
    linarith
  unfold unitExponent
  rw [abs_of_pos hq, abs_of_pos (by linarith)]
  omega

/-- The product of a double and a thousand is not rounded over a whole multiple of a thousand. -/
theorem toDouble_thousand (hq : 0 < q) (hdouble : IsDouble q) (hless : q * 1000 < 2 ^ 53) :
    (⌊q⌋ : ℚ) * 1000 ≤ toDouble (q * 1000) ∧ toDouble (q * 1000) < (⌊q⌋ + 1) * 1000 := by
  have hfloor := Int.floor_le q
  have hceil := Int.lt_floor_add_one q
  constructor
  · have hgrid := intCast_eq_unit (unitExponent_nonpos (by linarith) hless) (⌊q⌋ * 1000)
    push_cast at hgrid
    refine le_toDouble (n := ⌊q⌋ * 1000 * 2 ^ (0 - unitExponent (q * 1000)).toNat) ?_ ?_
    · push_cast
      exact hgrid
    · linarith
  · -- the next whole number is at least a unit away, and the error is half a unit of the product
    obtain ⟨n, hn⟩ := hdouble.eq_unit hq
    have hgrid := intCast_eq_unit (unitExponent_nonpos hq (by linarith)) (⌊q⌋ + 1)
    have hpos := unit_pos q
    have hunits : n + 1 ≤ (⌊q⌋ + 1) * 2 ^ (0 - unitExponent q).toNat := by
      have hlt : (n : ℚ) * unit q <
          (((⌊q⌋ + 1) * 2 ^ (0 - unitExponent q).toNat : ℤ) : ℚ) * unit q := by
        rw [← hn, ← hgrid]
        push_cast
        exact hceil
      have hcast : (n : ℚ) < (((⌊q⌋ + 1) * 2 ^ (0 - unitExponent q).toNat : ℤ) : ℚ) :=
        lt_of_mul_lt_mul_right hlt hpos.le
      exact_mod_cast hcast
    have happart : q + unit q ≤ ⌊q⌋ + 1 := by
      have hle : ((n + 1 : ℤ) : ℚ) * unit q ≤
          (((⌊q⌋ + 1) * 2 ^ (0 - unitExponent q).toNat : ℤ) : ℚ) * unit q :=
        mul_le_mul_of_nonneg_right (by exact_mod_cast hunits) hpos.le
      rw [← hgrid] at hle
      push_cast at hle
      linarith
    have hproduct : unit (q * 1000) ≤ unit q * 1024 := by
      have hpow : (2 : ℚ) ^ unitExponent (q * 1000) ≤ 2 ^ (unitExponent q + 10) :=
        zpow_le_zpow_right₀ (by norm_num) (unitExponent_thousand hq)
      rw [zpow_add₀ (by norm_num)] at hpow
      rw [unit, unit]
      norm_num at hpow ⊢
      linarith
    have hnear := (abs_le.mp (abs_toDouble_sub_le (q * 1000))).2
    linarith

end Doubles

end DoubleRounding
