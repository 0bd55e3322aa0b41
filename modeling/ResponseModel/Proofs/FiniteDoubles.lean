import Mathlib.Algebra.Order.Field.Power
import Mathlib.Tactic.Linarith
import Mathlib.Tactic.NormNum
import Mathlib.Tactic.Positivity
import Mathlib.Tactic.Ring
import ResponseModel.Proofs.Numerals

/-!
# Numbers that have a finite double

The double nearest to a number is finite exactly if the magnitude of the number is below the middle
between the greatest double and `2 ^ 1024` (`Binary64.overflow`).  Rounding is done in natural
numbers, with a scale that depends on the size of the number; the proof goes by that size
(`floorLog2_spec`).  Below `2 ^ 1023` a carry cannot reach the exponent of the infinities, from
`2 ^ 1024` on the exponent is too large by itself, and between them the last rounding step decides
(`roundDiv_lt_iff`).  Main statements: `Numeral.isSome_toBinary64?_iff` about numerals,
`Binary64.isSome_ofText?_iff` about their texts.
-/

namespace ResponseModel

theorem pow2_eq (n : Nat) : pow2 n = 2 ^ n := rfl

theorem pow10_eq (n : Nat) : pow10 n = 10 ^ n := rfl

/-- A power with an integer exponent is a quotient of two powers, one of which is one. -/
theorem zpow_eq_pow_div_pow {base : ℚ} (h : base ≠ 0) (exponent : Int) :
    base ^ exponent = base ^ exponent.toNat / base ^ (-exponent).toNat := by
  have hsplit : exponent = (exponent.toNat : Int) - ((-exponent).toNat : Int) := by omega
  conv_lhs => rw [hsplit]
  rw [zpow_sub₀ h, zpow_natCast, zpow_natCast]

namespace Binary64

/-! ## Rounding a quotient -/

theorem roundDiv_cases (num den : Nat) : roundDiv num den = num / den ∧ 2 * (num % den) ≤ den ∨
    roundDiv num den = num / den + 1 ∧ den ≤ 2 * (num % den) := by
  simp only [roundDiv]
  split
  · exact .inl ⟨rfl, by omega⟩
  · split
    · exact .inr ⟨rfl, by omega⟩
    · rcases Nat.mod_two_eq_zero_or_one (num / den) with heven | hodd
      · exact .inl ⟨by omega, by omega⟩
      · exact .inr ⟨by omega, by omega⟩

theorem le_roundDiv {num den k : Nat} (hden : 0 < den) (h : (k : ℚ) ≤ (num : ℚ) / den) :
    k ≤ roundDiv num den := by
  rw [le_div_iff₀ (Nat.cast_pos.2 hden)] at h
  have hdown : k ≤ num / den := (Nat.le_div_iff_mul_le hden).2 (by exact_mod_cast h)
  rcases roundDiv_cases num den with ⟨heq, -⟩ | ⟨heq, -⟩ <;> omega

theorem roundDiv_le {num den k : Nat} (hden : 0 < den) (h : (num : ℚ) / den ≤ k) :
    roundDiv num den ≤ k := by
  rw [div_le_iff₀ (Nat.cast_pos.2 hden)] at h
  have hle : num ≤ k * den := by exact_mod_cast h
  by_cases hlt : num / den < k
  · rcases roundDiv_cases num den with ⟨heq, -⟩ | ⟨heq, -⟩ <;> omega
  · -- the quotient is exact, so that nothing is rounded
    have hk : num / den = k := le_antisymm (Nat.div_le_of_le_mul (by rwa [Nat.mul_comm])) (by omega)
    have hmod : num % den = 0 := by
      have hsum := Nat.div_add_mod num den
      rw [hk, Nat.mul_comm] at hsum
      omega
    rcases roundDiv_cases num den with ⟨heq, -⟩ | ⟨-, hup⟩ <;> omega

/-- Rounding stays below an even number exactly if the quotient is more than a half below it: a half
goes to the even neighbour. -/
theorem roundDiv_lt_iff {num den k : Nat} (hden : 0 < den) (hk : k % 2 = 0) :
    roundDiv num den < k ↔ (num : ℚ) / den < k - 1 / 2 := by
  have hscale : (num : ℚ) / den < k - 1 / 2 ↔ 2 * num + den < 2 * (k * den) := by
    rw [div_lt_iff₀ (Nat.cast_pos.2 hden), ← @Nat.cast_lt ℚ]
    push_cast
    constructor <;> intro h <;> linarith
  rw [hscale]
  have hsum : num / den * den + num % den = num := by
    rw [Nat.mul_comm]
    exact Nat.div_add_mod num den
  have hmod : num % den < den := Nat.mod_lt num hden
  rcases Nat.lt_trichotomy (num / den + 1) k with hlt | heq | hgt
  · have hmul : (num / den + 2) * den ≤ k * den := Nat.mul_le_mul_right den hlt
    rw [Nat.add_mul] at hmul
    rcases roundDiv_cases num den with ⟨heq, -⟩ | ⟨heq, -⟩ <;> constructor <;> intro <;> omega
  · have hmul : k * den = num / den * den + den := by rw [← heq, Nat.add_mul, Nat.one_mul]
    simp only [roundDiv]
    split
    · omega
    · split <;> omega
  · have hmul : k * den ≤ num / den * den := Nat.mul_le_mul_right den (by omega)
    rcases roundDiv_cases num den with ⟨heq, -⟩ | ⟨heq, -⟩ <;> constructor <;> intro <;> omega

/-! ## The size of a number -/

theorem le_scaled_iff {num den : Nat} (hden : 0 < den) (exponent : Int) :
    den * pow2 exponent.toNat ≤ num * pow2 (-exponent).toNat ↔
      (2 : ℚ) ^ exponent ≤ (num : ℚ) / den := by
  have hdenQ : (0 : ℚ) < den := Nat.cast_pos.2 hden
  rw [zpow_eq_pow_div_pow two_ne_zero, div_le_div_iff₀ (by positivity) hdenQ, pow2_eq, pow2_eq,
    mul_comm den]
  exact_mod_cast Iff.rfl

/-- The size is the exponent of the greatest power of two that is not above the number. -/
theorem floorLog2_spec {num den : Nat} (hnum : 0 < num) (hden : 0 < den) :
    (2 : ℚ) ^ floorLog2 num den ≤ (num : ℚ) / den ∧
      (num : ℚ) / den < 2 ^ (floorLog2 num den + 1) := by
  have hdenQ : (0 : ℚ) < den := Nat.cast_pos.2 hden
  -- the logarithms of both parts are off by less than one each
  have hnumLow : (2 : ℚ) ^ (num.log2 : Int) ≤ num := by
    rw [zpow_natCast]
    exact_mod_cast Nat.log2_self_le hnum.ne'
  have hnumHigh : (num : ℚ) < 2 ^ ((num.log2 : Int) + 1) := by
    rw [← Nat.cast_succ, zpow_natCast]
    exact_mod_cast Nat.lt_log2_self
  have hdenLow : (2 : ℚ) ^ (den.log2 : Int) ≤ den := by
    rw [zpow_natCast]
    exact_mod_cast Nat.log2_self_le hden.ne'
  have hdenHigh : (den : ℚ) < 2 ^ ((den.log2 : Int) + 1) := by
    rw [← Nat.cast_succ, zpow_natCast]
    exact_mod_cast Nat.lt_log2_self
  have hlow : (2 : ℚ) ^ ((num.log2 : Int) - den.log2 - 1) ≤ num / den := by
    rw [le_div_iff₀ hdenQ]
    calc (2 : ℚ) ^ ((num.log2 : Int) - den.log2 - 1) * den
        ≤ 2 ^ ((num.log2 : Int) - den.log2 - 1) * 2 ^ ((den.log2 : Int) + 1) :=
          mul_le_mul_of_nonneg_left hdenHigh.le (by positivity)
      _ = 2 ^ (num.log2 : Int) := by rw [← zpow_add₀ two_ne_zero]; congr 1; ring
      _ ≤ num := hnumLow
  have hhigh : (num : ℚ) / den < 2 ^ ((num.log2 : Int) - den.log2 + 1) := by
    rw [div_lt_iff₀ hdenQ]
    calc (num : ℚ) < 2 ^ ((num.log2 : Int) + 1) := hnumHigh
      _ = 2 ^ ((num.log2 : Int) - den.log2 + 1) * 2 ^ (den.log2 : Int) := by
          rw [← zpow_add₀ two_ne_zero]; congr 1; ring
      _ ≤ 2 ^ ((num.log2 : Int) - den.log2 + 1) * den :=
          mul_le_mul_of_nonneg_left hdenLow (by positivity)
  simp only [floorLog2, le_scaled_iff hden]
  split
  · next hguess => exact ⟨hguess, hhigh⟩
  · next hguess =>
      refine ⟨hlow, ?_⟩
      rw [sub_add_cancel]
      exact not_le.1 hguess

theorem scaled_ratio (num den : Nat) (exponent : Int) :
    ((num * pow2 (-exponent).toNat : Nat) : ℚ) / ((den * pow2 exponent.toNat : Nat) : ℚ) =
      (num : ℚ) / den / 2 ^ exponent := by
  rw [zpow_eq_pow_div_pow two_ne_zero, pow2_eq, pow2_eq]
  push_cast
  rw [div_div_eq_mul_div, div_mul_eq_mul_div, div_div]

/-! ## The last finite number -/

/-- The middle between the greatest double and the power of two above it.  Numbers from here on
have no finite double. -/
def overflow : ℚ := 2 ^ 1024 - 2 ^ 970

theorem overflow_eq : overflow = (2 ^ 54 - 1) * 2 ^ 970 := by
  rw [overflow, show 1024 = 54 + 970 from rfl, pow_add, sub_mul, one_mul]

theorem pow_lt_overflow : (2 : ℚ) ^ (1023 : Int) < overflow := by
  have hsplit : (2 : ℚ) ^ (1023 : Int) = 2 ^ 53 * 2 ^ 970 := by rw [← pow_add]; rfl
  rw [hsplit, overflow_eq]
  exact mul_lt_mul_of_pos_right (by norm_num) (by positivity)

theorem overflow_lt_pow : overflow < (2 : ℚ) ^ (1024 : Int) := by
  have hpow : (2 : ℚ) ^ (1024 : Int) = 2 ^ 1024 := rfl
  rw [hpow, overflow]
  exact sub_lt_self _ (by positivity)

theorem nearestMagnitude_lt_iff {num den : Nat} (hden : 0 < den) :
    nearestMagnitude num den < infinityMagnitude ↔ (num : ℚ) / den < overflow := by
  by_cases hzero : num = 0
  · subst hzero
    have hpos : (0 : ℚ) < overflow := lt_trans (by positivity) pow_lt_overflow
    simpa [nearestMagnitude, infinityMagnitude, pow2_eq] using hpos
  obtain ⟨hlow, hhigh⟩ := floorLog2_spec (Nat.pos_of_ne_zero hzero) hden
  simp only [nearestMagnitude, if_neg hzero]
  generalize floorLog2 num den = size at hlow hhigh
  generalize hexponent : max (size - 52) (-1074) = exponent
  have hscaled := scaled_ratio num den exponent
  have hden' : 0 < den * pow2 exponent.toNat := Nat.mul_pos hden (Nat.two_pow_pos _)
  have hinfinity : infinityMagnitude = 2047 * 2 ^ 52 := rfl
  rw [hinfinity, pow2_eq 52]
  rcases lt_trichotomy size 1023 with hlt | heq | hgt
  · -- small numbers: the significand has at most 53 bits, a carry included
    have hround : roundDiv (num * pow2 (-exponent).toNat) (den * pow2 exponent.toNat) ≤ 2 ^ 53 := by
      refine roundDiv_le hden' ?_
      rw [hscaled, div_le_iff₀ (by positivity)]
      calc (num : ℚ) / den ≤ 2 ^ (size + 1) := hhigh.le
        _ ≤ 2 ^ (53 + exponent) := zpow_le_zpow_right₀ one_le_two (by omega)
        _ = (2 ^ 53 : Nat) * 2 ^ exponent := by
            rw [zpow_add₀ two_ne_zero]
            norm_num
    have hbelow : (num : ℚ) / den < overflow := by
      calc (num : ℚ) / den < 2 ^ (size + 1) := hhigh
        _ ≤ 2 ^ (1023 : Int) := zpow_le_zpow_right₀ one_le_two (by omega)
        _ < overflow := pow_lt_overflow
    exact iff_of_true (by omega) hbelow
  · -- the greatest exponent: what is rounded decides
    have hexp : exponent = 971 := by omega
    subst hexp
    have hround : roundDiv (num * pow2 (-971 : Int).toNat) (den * pow2 (971 : Int).toNat) < 2 ^ 53 ↔
        _ := roundDiv_lt_iff hden' (by norm_num)
    rw [hscaled, div_lt_iff₀ (by positivity)] at hround
    have hmiddle : (((2 ^ 53 : Nat) : ℚ) - 1 / 2) * 2 ^ (971 : Int) = overflow := by
      have hsplit : (2 : ℚ) ^ (971 : Int) = 2 * 2 ^ 970 := by rw [← pow_succ']; rfl
      rw [overflow_eq, hsplit, ← mul_assoc]
      norm_num
    rw [hmiddle] at hround
    rw [← hround]
    omega
  · -- great numbers: the exponent is that of the infinities or above it
    have hround : 2 ^ 52 ≤ roundDiv (num * pow2 (-exponent).toNat) (den * pow2 exponent.toNat) := by
      refine le_roundDiv hden' ?_
      rw [hscaled, le_div_iff₀ (by positivity)]
      calc ((2 ^ 52 : Nat) : ℚ) * 2 ^ exponent = 2 ^ (52 + exponent) := by
            rw [zpow_add₀ two_ne_zero]
            norm_num
        _ = 2 ^ size := by congr 1; omega
        _ ≤ (num : ℚ) / den := hlow
    have habove : overflow ≤ (num : ℚ) / den := by
      calc overflow ≤ 2 ^ (1024 : Int) := overflow_lt_pow.le
        _ ≤ 2 ^ size := zpow_le_zpow_right₀ one_le_two (by omega)
        _ ≤ (num : ℚ) / den := hlow
    exact iff_of_false (by omega) (not_lt.2 habove)

theorem isSome_ofRatio?_iff {negative : Bool} {num den : Nat} (hden : 0 < den) :
    (ofRatio? negative num den).isSome = true ↔ (num : ℚ) / den < overflow := by
  rw [← nearestMagnitude_lt_iff hden]
  simp only [ofRatio?]
  split <;> simp_all

end Binary64

/-! ## Numerals -/

namespace Numeral

/-- The number that a numeral stands for. -/
def value (numeral : Numeral) : ℚ :=
  (if numeral.negative then -1 else 1) * (numeral.digits * 10 ^ numeral.exponent)

theorem abs_value (numeral : Numeral) :
    |numeral.value| = numeral.digits * 10 ^ numeral.exponent := by
  have hnonneg : (0 : ℚ) ≤ numeral.digits * 10 ^ numeral.exponent := by positivity
  rw [value, abs_mul, abs_of_nonneg hnonneg]
  split <;> simp

theorem value_eq_ratio (numeral : Numeral) :
    (numeral.digits : ℚ) * 10 ^ numeral.exponent =
      ((numeral.digits * pow10 numeral.exponent.toNat : Nat) : ℚ) /
        ((pow10 (-numeral.exponent).toNat : Nat) : ℚ) := by
  rw [zpow_eq_pow_div_pow (by norm_num), pow10_eq, pow10_eq]
  push_cast
  rw [mul_div_assoc]

/-- The number of digits gives the size of a number. -/
theorem pow_le_digits {n : Nat} (h : n ≠ 0) :
    (10 : ℚ) ^ ((Nat.toDigits 10 n).length - 1 : Int) ≤ n ∧
      (n : ℚ) < 10 ^ ((Nat.toDigits 10 n).length : Int) := by
  have hpos : 0 < (Nat.toDigits 10 n).length := Nat.length_toDigits_pos
  have hupper : n < 10 ^ (Nat.toDigits 10 n).length :=
    (Nat.length_toDigits_le_iff (by norm_num) hpos).1 le_rfl
  have hlower : 10 ^ ((Nat.toDigits 10 n).length - 1) ≤ n := by
    by_contra hlt
    rw [not_le] at hlt
    cases hone : (Nat.toDigits 10 n).length - 1 with
    | zero =>
        rw [hone] at hlt
        omega
    | succ k =>
        have hshort := (Nat.length_toDigits_le_iff (b := 10) (by norm_num) (by omega)).2 hlt
        omega
  constructor
  · rw [← Nat.cast_one, ← Nat.cast_sub hpos, zpow_natCast]
    exact_mod_cast hlower
  · rw [zpow_natCast]
    exact_mod_cast hupper

theorem overflow_lt_pow_ten : Binary64.overflow < (10 : ℚ) ^ (400 : Int) := by
  calc Binary64.overflow < (2 : ℚ) ^ (1024 : Int) := Binary64.overflow_lt_pow
    _ ≤ 2 ^ (3 * 400 : Int) := zpow_le_zpow_right₀ one_le_two (by norm_num)
    _ = (2 ^ (3 : Int)) ^ (400 : Int) := zpow_mul 2 3 400
    _ ≤ 10 ^ (400 : Int) := zpow_le_zpow_left₀ (by norm_num) (by norm_num) (by norm_num)

/-- A numeral has a finite double exactly if its magnitude is below `2 ^ 1024 - 2 ^ 970`. -/
theorem isSome_toBinary64?_iff (numeral : Numeral) :
    numeral.toBinary64?.isSome = true ↔ |numeral.value| < Binary64.overflow := by
  have hone : (1 : ℚ) < Binary64.overflow :=
    lt_of_le_of_lt (one_le_zpow₀ one_le_two (by norm_num)) Binary64.pow_lt_overflow
  have hzeroSome : (Binary64.ofRatio? numeral.negative 0 1).isSome = true := by
    rw [Binary64.isSome_ofRatio?_iff one_pos]
    simpa using lt_trans one_pos hone
  rw [abs_value]
  by_cases hzero : numeral.digits = 0
  · simpa [toBinary64?, hzero, hzeroSome] using lt_trans one_pos hone
  obtain ⟨hlow, hhigh⟩ := pow_le_digits hzero
  have hpos : (0 : ℚ) < 10 ^ numeral.exponent := by positivity
  simp only [toBinary64?]
  generalize ((Nat.toDigits 10 numeral.digits).length : Int) = length at hlow hhigh
  split
  · next hsmall =>
      have hsize : length + numeral.exponent < -400 := hsmall.resolve_left hzero
      refine iff_of_true hzeroSome ?_
      calc (numeral.digits : ℚ) * 10 ^ numeral.exponent
          ≤ 10 ^ length * 10 ^ numeral.exponent := mul_le_mul_of_nonneg_right hhigh.le hpos.le
        _ = 10 ^ (length + numeral.exponent) := (zpow_add₀ (by norm_num) _ _).symm
        _ ≤ 1 := zpow_le_one_of_nonpos₀ (by norm_num) (by omega)
        _ < Binary64.overflow := hone
  · split
    · next hlarge =>
        refine iff_of_false (by simp) (not_lt.2 ?_)
        calc Binary64.overflow ≤ 10 ^ (400 : Int) := overflow_lt_pow_ten.le
          _ ≤ 10 ^ (length - 1 + numeral.exponent) :=
              zpow_le_zpow_right₀ (by norm_num) (by omega)
          _ = 10 ^ (length - 1) * 10 ^ numeral.exponent := zpow_add₀ (by norm_num) _ _
          _ ≤ numeral.digits * 10 ^ numeral.exponent := mul_le_mul_of_nonneg_right hlow hpos.le
    · have hden : 0 < pow10 (-numeral.exponent).toNat := Nat.pow_pos (by norm_num)
      rw [Binary64.isSome_ofRatio?_iff hden, value_eq_ratio]

end Numeral

/-- A text has a finite double exactly if it spells a numeral in the range of doubles. -/
theorem Binary64.isSome_ofText?_iff {text : String} : (Binary64.ofText? text).isSome = true ↔
    ∃ numeral, Numeral.Spells text numeral ∧ |numeral.value| < overflow := by
  simp only [Binary64.ofText?, ← Numeral.ofText?_eq_some_iff, ← Numeral.isSome_toBinary64?_iff]
  cases Numeral.ofText? text with
  | none => simp
  | some numeral => simp

end ResponseModel
