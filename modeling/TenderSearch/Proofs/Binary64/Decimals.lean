import Mathlib.Data.Nat.Digits.Defs
import TenderSearch.Proofs.Binary64.Rounding
import TenderSearch.Text.Numeral

/-!
# Rounding decimals

Decimals and numerals are rounded to the nearest floating-point number. That
very large and very small ones are not expanded makes no difference: powers of
ten settle what they round to.
-/

namespace TenderSearch

namespace Binary64

theorem pow_ten_le_of_length {digits : Nat} (hdigits : 0 < digits) :
    (10 : ℚ) ^ (((Nat.toDigits 10 digits).length : Int) - 1) ≤ digits := by
  have hpos : 0 < (Nat.toDigits 10 digits).length := Nat.length_toDigits_pos
  obtain ⟨k, hk⟩ := Nat.exists_eq_succ_of_ne_zero hpos.ne'
  rw [hk, Nat.cast_succ, add_sub_cancel_right, zpow_natCast]
  rcases Nat.eq_zero_or_pos k with rfl | hkpos
  · rw [pow_zero]
    exact_mod_cast hdigits
  · have hlong : ¬ digits < 10 ^ k := by
      rw [← Nat.length_toDigits_le_iff (by decide) hkpos]
      omega
    exact_mod_cast not_lt.mp hlong

theorem lt_pow_ten_length (digits : Nat) :
    (digits : ℚ) < 10 ^ ((Nat.toDigits 10 digits).length : Int) := by
  rw [zpow_natCast]
  exact_mod_cast (Nat.length_toDigits_le_iff (by decide) Nat.length_toDigits_pos).mp le_rfl

/-- A decimal is bounded from both sides by how many digits it has. -/
theorem ten_pow_le_decimal {digits : Nat} (hdigits : 0 < digits) {exponent low : Int}
    (hlow : low ≤ (Nat.toDigits 10 digits).length - 1 + exponent) :
    (10 : ℚ) ^ low ≤ digits * 10 ^ exponent := by
  have hten : (0 : ℚ) ≤ 10 ^ exponent := zpow_nonneg (by norm_num) _
  calc (10 : ℚ) ^ low ≤ 10 ^ (((Nat.toDigits 10 digits).length : Int) - 1 + exponent) :=
        zpow_le_zpow_right₀ (by norm_num) hlow
    _ = 10 ^ (((Nat.toDigits 10 digits).length : Int) - 1) * 10 ^ exponent :=
        zpow_add₀ (by norm_num) _ _
    _ ≤ digits * 10 ^ exponent :=
        mul_le_mul_of_nonneg_right (pow_ten_le_of_length hdigits) hten

theorem decimal_le_ten_pow {digits : Nat} {exponent high : Int}
    (hhigh : (Nat.toDigits 10 digits).length + exponent ≤ high) :
    (digits * 10 ^ exponent : ℚ) ≤ 10 ^ high := by
  have hten : (0 : ℚ) ≤ 10 ^ exponent := zpow_nonneg (by norm_num) _
  calc (digits * 10 ^ exponent : ℚ)
      ≤ 10 ^ ((Nat.toDigits 10 digits).length : Int) * 10 ^ exponent :=
        mul_le_mul_of_nonneg_right (lt_pow_ten_length digits).le hten
    _ = 10 ^ (((Nat.toDigits 10 digits).length : Int) + exponent) :=
        (zpow_add₀ (by norm_num) _ _).symm
    _ ≤ 10 ^ high := zpow_le_zpow_right₀ (by norm_num) hhigh

theorem two_pow_le_ten_pow : (2 : ℚ) ^ 1089 ≤ 10 ^ 330 := by
  rw [show 1089 = 33 * 33 from rfl, show 330 = 10 * 33 from rfl, pow_mul, pow_mul]
  exact pow_le_pow_left₀ (by norm_num) (by norm_num) 33

/-- Powers of ten from this one on are greater than all finite numbers. -/
theorem bound_le_ten_pow : (2 : ℚ) ^ 1024 - 2 ^ 970 ≤ 10 ^ (330 : Int) := by
  rw [zpow_ofNat]
  calc (2 : ℚ) ^ 1024 - 2 ^ 970 ≤ 2 ^ 1024 := sub_le_self _ (pow_pos two_pos _).le
    _ ≤ 2 ^ 1089 := pow_le_pow_right₀ one_le_two (by decide)
    _ ≤ 10 ^ 330 := two_pow_le_ten_pow

/-- Powers of ten from this one down are less than half the least number. -/
theorem ten_pow_mul_one_lt : (10 : ℚ) ^ (-331 : Int) * one < 1 / 2 := by
  have hten : (0 : ℚ) < 10 ^ 331 := pow_pos (by norm_num) _
  have hlt : (2 : ℚ) ^ 1074 * 2 < 10 ^ 331 := by
    calc (2 : ℚ) ^ 1074 * 2 = 2 ^ (1074 + 1) := (pow_succ 2 1074).symm
      _ ≤ 2 ^ 1089 := pow_le_pow_right₀ one_le_two (by decide)
      _ ≤ 10 ^ 330 := two_pow_le_ten_pow
      _ < 10 ^ 331 := pow_lt_pow_right₀ (by norm_num) (by decide)
  rw [zpow_neg, zpow_ofNat, cast_one, inv_mul_lt_iff₀ hten, ← div_eq_mul_one_div,
    lt_div_iff₀ two_pos]
  exact hlt

/-- Less than half a unit is nearest to nothing. -/
theorem isNearestMagnitude_zero {v : ℚ} (hv : 0 ≤ v) (hsmall : v < 1 / 2) :
    IsNearestMagnitude v 0 := by
  intro n
  have hzero : (unitsAt 0 : ℚ) = 0 := Nat.cast_zero
  rw [hzero, sub_zero, abs_of_nonneg hv]
  rcases Nat.eq_zero_or_pos n with rfl | hn
  · rw [hzero, sub_zero, abs_of_nonneg hv]
    exact ⟨le_rfl, fun _ hne => absurd rfl hne⟩
  · have hunit : (1 : ℚ) ≤ unitsAt n := by
      exact_mod_cast (unitsAt_strictMono hn : unitsAt 0 < unitsAt n)
    rw [abs_of_neg (by linarith)]
    exact ⟨by linarith, fun heq => by linarith⟩

theorem roundsTo_zero {negative : Bool} {v : ℚ} (hv : 0 ≤ v) (hsmall : v * one < 1 / 2) :
    RoundsTo (signOf negative * v) ⟨negative, 0⟩ := by
  have hunits : 0 ≤ v * one := mul_nonneg hv one_pos.le
  have hq : signOf negative * v = signOf negative * (v * one / one) := by
    rw [mul_div_cancel_right₀ _ one_pos.ne']
  have hm : IsNearestMagnitude (v * one) (0 : Fin (2047 * Nat.pow 2 52)).val := by
    rw [Fin.val_zero]
    exact isNearestMagnitude_zero hunits hsmall
  exact roundsTo_of_isNearestMagnitude hq hunits hm rfl

/-- A decimal is rounded correctly, also where its digits are not looked at. -/
theorem isRounded_ofDecimal (negative : Bool) (digits : Nat) (exponent : Int) :
    IsRounded (signOf negative * (digits * 10 ^ exponent)) (ofDecimal negative digits exponent) := by
  have hvalue : (0 : ℚ) ≤ digits * 10 ^ exponent :=
    mul_nonneg (Nat.cast_nonneg _) (zpow_nonneg (by norm_num) _)
  unfold ofDecimal
  dsimp only
  split
  next hzero =>
    rw [hzero, Nat.cast_zero, zero_mul]
    exact roundsTo_zero le_rfl (by rw [zero_mul]; exact one_half_pos)
  next hdigits =>
    split
    next hlarge =>
      intro x hx
      have hrange := hx.inRange
      rw [abs_signOf_mul, abs_of_nonneg hvalue] at hrange
      have hlow : (10 : ℚ) ^ (330 : Int) ≤ digits * 10 ^ exponent :=
        ten_pow_le_decimal (Nat.pos_of_ne_zero hdigits) (by omega)
      exact absurd hrange (not_lt.mpr (bound_le_ten_pow.trans hlow))
    next hlarge =>
      split
      next hsmall =>
        apply roundsTo_zero hvalue
        have hhigh : (digits * 10 ^ exponent : ℚ) ≤ 10 ^ (-331 : Int) :=
          decimal_le_ten_pow (by omega)
        exact (mul_le_mul_of_nonneg_right hhigh one_pos.le).trans_lt ten_pow_mul_one_lt
      next hsmall =>
        split
        next hnonneg =>
          have hrounded :=
            isRounded_nearest negative (digits * Nat.pow 10 exponent.toNat) Nat.one_pos
          rwa [Nat.cast_one, div_one, Nat.cast_mul, Nat.pow_eq, Nat.cast_pow, ← zpow_natCast,
            Int.toNat_of_nonneg hnonneg, Nat.cast_ofNat] at hrounded
        next hneg =>
          have hrounded := isRounded_nearest negative digits
            (Nat.pow_pos (by decide) : 0 < 10 ^ (-exponent).toNat)
          rwa [Nat.cast_pow, ← zpow_natCast, Int.toNat_of_nonneg (by omega), Nat.cast_ofNat,
            zpow_neg, div_inv_eq_mul] at hrounded

end Binary64

namespace Text

theorem foldl_digits (start : Nat) (digits : List Nat) :
    digits.foldl (fun n d => 10 * n + d) start = start * 10 ^ digits.length + ofDigits digits := by
  induction digits generalizing start with
  | nil => simp [ofDigits]
  | cons d rest ih =>
      rw [ofDigits, List.foldl_cons, List.foldl_cons, ih, ih, List.length_cons, Nat.pow_succ]
      ring

theorem ofDigits_append (digits others : List Nat) :
    ofDigits (digits ++ others) = ofDigits digits * 10 ^ others.length + ofDigits others := by
  rw [ofDigits, List.foldl_append, foldl_digits]
  rfl

namespace Numeral

open Binary64 (IsRounded signOf)

/-- The rational number that a numeral stands for. -/
def value (n : Numeral) : ℚ :=
  signOf n.negative *
    ((ofDigits n.whole + ofDigits (n.fraction.getD []) / 10 ^ (n.fraction.getD []).length) *
      10 ^ n.exponent.getD 0)

/-- What is nearest to a numeral is what its value rounds to. -/
theorem isRounded_nearest? (n : Numeral) : IsRounded n.value n.nearest? := by
  have hrounded := Binary64.isRounded_ofDecimal n.negative
    (ofDigits (n.whole ++ n.fraction.getD []))
    (n.exponent.getD 0 - ((n.fraction.getD []).length : Int))
  have hvalue : n.value = signOf n.negative *
      ((ofDigits (n.whole ++ n.fraction.getD []) : Nat) *
        10 ^ (n.exponent.getD 0 - ((n.fraction.getD []).length : Int))) := by
    have hten : (10 : ℚ) ^ (n.fraction.getD []).length ≠ 0 := by positivity
    rw [value, ofDigits_append, zpow_sub₀ (by norm_num), zpow_natCast]
    push_cast
    field_simp
  rw [hvalue]
  exact hrounded

end Numeral

end Text

end TenderSearch
