import Mathlib.Algebra.Order.Field.Rat
import Mathlib.Algebra.Order.Group.Abs
import Mathlib.Data.Nat.Cast.Order.Field
import Mathlib.Order.Monotone.Basic
import Mathlib.Tactic.FieldSimp
import Mathlib.Tactic.Linarith
import Mathlib.Tactic.Positivity
import Mathlib.Tactic.Ring
import TenderSearch.Binary64.Basic

/-!
# Nearest magnitudes

The sizes of magnitudes ascend strictly. A quotient of units is rounded to the
magnitude whose size is nearest to it, to the even one where two are equally
near, and this is the only one. It is the magnitude of a finite number exactly
below the middle between the greatest finite size and the next power of two.
-/

namespace TenderSearch.Binary64

/-! ## Quotients -/

theorem quotient_eq {num den : Nat} (hden : 0 < den) :
    (num / den : ℚ) = (num / den : Nat) + (num % den : Nat) / den := by
  have hpos : (den : ℚ) ≠ 0 := by positivity
  have hsplit : (num : ℚ) = den * (num / den : Nat) + (num % den : Nat) := by
    exact_mod_cast (Nat.div_add_mod num den).symm
  field_simp
  exact hsplit

/-- Rounding moves a quotient by half a unit at most, and by just so much only to
an even number. -/
theorem roundQuotient_near (num : Nat) {den : Nat} (hden : 0 < den) :
    |(num / den : ℚ) - roundQuotient num den| < 1 / 2 ∨
      |(num / den : ℚ) - roundQuotient num den| = 1 / 2 ∧ Even (roundQuotient num den) := by
  have hpos : (0 : ℚ) < den := by exact_mod_cast hden
  have hrest : (num % den : Nat) / (den : ℚ) < 1 := by
    rw [div_lt_one hpos]
    exact_mod_cast Nat.mod_lt num hden
  have hnonneg : (0 : ℚ) ≤ (num % den : Nat) / (den : ℚ) := by positivity
  rw [quotient_eq hden]
  unfold roundQuotient
  dsimp only
  split
  next hless =>
    have hhalf : (num % den : Nat) / (den : ℚ) < 1 / 2 := by
      rw [div_lt_div_iff₀ hpos two_pos]
      exact_mod_cast (by omega : num % den * 2 < 1 * den)
    left
    rw [add_sub_cancel_left, abs_of_nonneg hnonneg]
    exact hhalf
  next hless =>
    split
    next hmore =>
      have hhalf : 1 / 2 < (num % den : Nat) / (den : ℚ) := by
        rw [div_lt_div_iff₀ two_pos hpos]
        exact_mod_cast (by omega : 1 * den < num % den * 2)
      left
      push_cast
      rw [abs_lt]
      constructor <;> linarith
    next hmore =>
      have hhalf : (num % den : Nat) / (den : ℚ) = 1 / 2 := by
        rw [div_eq_div_iff hpos.ne' two_ne_zero]
        exact_mod_cast (by omega : num % den * 2 = 1 * den)
      right
      split
      next heven =>
        refine ⟨?_, Nat.even_iff.mpr heven⟩
        rw [hhalf, add_sub_cancel_left]
        norm_num
      next hodd =>
        refine ⟨?_, Nat.even_iff.mpr (by omega)⟩
        rw [hhalf]
        push_cast
        rw [abs_of_nonpos] <;> linarith

theorem div_le_roundQuotient (num den : Nat) : num / den ≤ roundQuotient num den := by
  unfold roundQuotient
  dsimp only
  split_ifs <;> omega

theorem roundQuotient_le (num den : Nat) : roundQuotient num den ≤ num / den + 1 := by
  unfold roundQuotient
  dsimp only
  split_ifs <;> omega

/-- A whole number that is not the rounded quotient is half a unit away at least. -/
theorem roundQuotient_nearest (num : Nat) {den : Nat} (hden : 0 < den) (n : Nat) :
    |(num / den : ℚ) - roundQuotient num den| ≤ |(num / den : ℚ) - n| ∧
      (|(num / den : ℚ) - n| = |(num / den : ℚ) - roundQuotient num den| →
        n ≠ roundQuotient num den → Even (roundQuotient num den)) := by
  by_cases hsame : n = roundQuotient num den
  · exact ⟨by rw [hsame], fun _ hne => absurd hsame hne⟩
  · have hapart : (1 : ℚ) ≤ |(n : ℚ) - roundQuotient num den| := by
      have hint : (1 : ℤ) ≤ |(n : ℤ) - roundQuotient num den| :=
        Int.one_le_abs (sub_ne_zero.mpr (by exact_mod_cast hsame))
      exact_mod_cast hint
    have htriangle := abs_sub_le (n : ℚ) (num / den) (roundQuotient num den)
    rw [abs_sub_comm (n : ℚ) (num / den)] at htriangle
    rcases roundQuotient_near num hden with hnear | ⟨htie, heven⟩
    · exact ⟨by linarith, fun heq => by linarith⟩
    · exact ⟨by linarith, fun _ _ => heven⟩

/-! ## Magnitudes -/

/-- Every magnitude has a significand of 53 bits, which starts with a one unless
the exponent is the least one. -/
theorem exists_significand (n : Nat) :
    ∃ k q, n = k * 2 ^ 52 + q ∧ q < 2 ^ 53 ∧ (k = 0 ∨ 2 ^ 52 ≤ q) := by
  refine ⟨n / 2 ^ 52 - 1, n - (n / 2 ^ 52 - 1) * 2 ^ 52, ?_, ?_, ?_⟩ <;> omega

theorem unitsAt_add {k q : Nat} (hq : q ≤ 2 ^ 53) (hk : k = 0 ∨ 2 ^ 52 ≤ q) :
    unitsAt (k * 2 ^ 52 + q) = q * 2 ^ k := by
  have hpow : Nat.pow 2 52 = 4503599627370496 := rfl
  unfold unitsAt
  rw [hpow]
  split
  next hsmall =>
    have hzero : k = 0 := by omega
    subst hzero
    simp
  next hlarge =>
    rcases Nat.lt_or_eq_of_le hq with hlt | rfl
    · have hexponent : (k * 2 ^ 52 + q) / 4503599627370496 - 1 = k := by omega
      have hfraction : 4503599627370496 + (k * 2 ^ 52 + q) % 4503599627370496 = q := by omega
      rw [hexponent, hfraction]
      rfl
    · -- the significand has grown by one bit
      have hexponent : (k * 2 ^ 52 + 2 ^ 53) / 4503599627370496 - 1 = k + 1 := by omega
      have hfraction : 4503599627370496 + (k * 2 ^ 52 + 2 ^ 53) % 4503599627370496 = 2 ^ 52 := by
        omega
      rw [hexponent, hfraction, Nat.pow_eq, Nat.pow_succ]
      ring

theorem unitsAt_strictMono : StrictMono unitsAt := by
  apply strictMono_nat_of_lt_succ
  intro n
  obtain ⟨k, q, rfl, hq, hk⟩ := exists_significand n
  rw [Nat.add_assoc, unitsAt_add hq.le hk, unitsAt_add (by omega) (by omega)]
  exact Nat.mul_lt_mul_of_pos_right (Nat.lt_succ_self q) (Nat.two_pow_pos k)

/-- From a power of two on, sizes are multiples of a unit in their last place. -/
theorem exists_multiple_or_lt (k n : Nat) :
    (∃ j, unitsAt n = j * 2 ^ k) ∨ 0 < k ∧ unitsAt n < 2 ^ 52 * 2 ^ k := by
  obtain ⟨l, q, rfl, hq, hl⟩ := exists_significand n
  rw [unitsAt_add hq.le hl]
  rcases Nat.lt_or_ge l k with hlt | hle
  · refine .inr ⟨Nat.zero_lt_of_lt hlt, ?_⟩
    calc q * 2 ^ l < 2 ^ 53 * 2 ^ l := Nat.mul_lt_mul_of_pos_right hq (Nat.two_pow_pos l)
      _ = 2 ^ 52 * 2 ^ (l + 1) := by ring
      _ ≤ 2 ^ 52 * 2 ^ k := Nat.mul_le_mul_left _ (Nat.pow_le_pow_right two_pos hlt)
  · refine .inl ⟨q * 2 ^ (l - k), ?_⟩
    rw [Nat.mul_assoc, ← Nat.pow_add, Nat.sub_add_cancel hle]

/-- No size is nearer to a number of units than the one of a magnitude, and if
another one is as near, the magnitude is even. -/
def IsNearestMagnitude (v : ℚ) (m : Nat) : Prop :=
  ∀ n, |v - unitsAt m| ≤ |v - unitsAt n| ∧
    (|v - unitsAt n| = |v - unitsAt m| → n ≠ m → Even m)

/-- The magnitude to which a quotient of units is rounded, in range or not. -/
def roundMagnitude (num den : Nat) : Nat :=
  ((num / den).log2 - 52) * 2 ^ 52 + roundQuotient num (den * 2 ^ ((num / den).log2 - 52))

/-- The significand of a rounded quotient has 53 bits, or has just got one more. -/
theorem significand_bounds {num den k : Nat} (hk : k = (num / den).log2 - 52) :
    roundQuotient num (den * 2 ^ k) ≤ 2 ^ 53 ∧
      (k = 0 ∨ 2 ^ 52 * 2 ^ k ≤ num / den) := by
  have hlow := div_le_roundQuotient num (den * 2 ^ k)
  have hhigh := roundQuotient_le num (den * 2 ^ k)
  rw [← Nat.div_div_eq_div_mul] at hlow hhigh
  have hlt : num / den < 2 ^ 53 * 2 ^ k := by
    rw [← Nat.pow_add]
    exact Nat.lt_of_lt_of_le Nat.lt_log2_self (Nat.pow_le_pow_right two_pos (by omega))
  have hquotient : num / den / 2 ^ k < 2 ^ 53 :=
    (Nat.div_lt_iff_lt_mul (Nat.two_pow_pos k)).mpr hlt
  refine ⟨by omega, ?_⟩
  by_cases hzero : k = 0
  · exact .inl hzero
  · right
    rw [← Nat.pow_add]
    have hnum : num / den ≠ 0 := by
      intro hnone
      rw [hnone] at hk
      exact hzero hk
    exact (Nat.pow_le_pow_right two_pos (by omega)).trans (Nat.log2_self_le hnum)

theorem abs_sub_multiple (num : Nat) {den : Nat} (hden : 0 < den) (j k : Nat) :
    |(num / den : ℚ) - (j * 2 ^ k : Nat)| = |(num / (den * 2 ^ k : Nat) : ℚ) - j| * 2 ^ k := by
  have hpos : (den : ℚ) ≠ 0 := by positivity
  have hstep : (0 : ℚ) < 2 ^ k := by positivity
  rw [← abs_of_pos hstep, ← abs_mul]
  congr 1
  push_cast
  field_simp

theorem isNearestMagnitude_roundMagnitude (num : Nat) {den : Nat} (hden : 0 < den) :
    IsNearestMagnitude (num / den) (roundMagnitude num den) := by
  intro n
  unfold roundMagnitude
  generalize hk : (num / den).log2 - 52 = k
  obtain ⟨hq, hlow⟩ := significand_bounds hk.symm
  have hstep : (0 : ℚ) < 2 ^ k := by positivity
  have hsig : k = 0 ∨ 2 ^ 52 ≤ roundQuotient num (den * 2 ^ k) := by
    refine hlow.imp id ?_
    intro hle
    apply le_trans _ (div_le_roundQuotient _ _)
    rw [← Nat.div_div_eq_div_mul]
    exact (Nat.le_div_iff_mul_le (Nat.two_pow_pos k)).mpr hle
  have hnearest := roundQuotient_nearest num (Nat.mul_pos hden (Nat.two_pow_pos k))
  rw [unitsAt_add hq hsig, abs_sub_multiple num hden]
  rcases exists_multiple_or_lt k n with ⟨j, hj⟩ | ⟨hpos, hsmall⟩
  · obtain ⟨hle, heven⟩ := hnearest j
    rw [hj, abs_sub_multiple num hden]
    refine ⟨mul_le_mul_of_nonneg_right hle hstep.le, ?_⟩
    intro heq hne
    have hq : Even (roundQuotient num (den * 2 ^ k)) := by
      apply heven (mul_right_cancel₀ hstep.ne' heq)
      rintro rfl
      apply hne
      apply unitsAt_strictMono.injective
      rw [hj, unitsAt_add hq hsig]
    exact (Nat.even_mul.mpr (.inr (by decide))).add hq
  · -- sizes below the power of two are farther away than the power itself
    have hbound : (2 ^ 52 * 2 ^ k : Nat) ≤ (num / den : ℚ) := by
      have hle := hlow.resolve_left hpos.ne'
      exact (Nat.cast_le.mpr hle).trans Nat.cast_div_le
    have hbelow : (unitsAt n : ℚ) < (2 ^ 52 * 2 ^ k : Nat) := by exact_mod_cast hsmall
    have hpower := (hnearest (2 ^ 52)).1
    have hfar : |(num / den : ℚ) - (2 ^ 52 * 2 ^ k : Nat)| < |(num / den : ℚ) - unitsAt n| := by
      rw [abs_of_nonneg (sub_nonneg.mpr hbound),
        abs_of_nonneg (sub_nonneg.mpr (hbelow.le.trans hbound))]
      exact sub_lt_sub_left hbelow _
    rw [abs_sub_multiple num hden] at hfar
    have hlt := lt_of_le_of_lt (mul_le_mul_of_nonneg_right hpower hstep.le) hfar
    exact ⟨hlt.le, fun heq => absurd heq hlt.ne'⟩

theorem isNearestMagnitude_unitsAt (m : Nat) : IsNearestMagnitude (unitsAt m) m := by
  intro n
  rw [sub_self, abs_zero]
  refine ⟨abs_nonneg _, ?_⟩
  intro hzero hne
  have hunits : (unitsAt m : ℚ) = unitsAt n := sub_eq_zero.mp (abs_eq_zero.mp hzero)
  exact absurd (unitsAt_strictMono.injective (by exact_mod_cast hunits)).symm hne

/-- Only one magnitude is nearest: of two even ones, one between them is nearer. -/
theorem IsNearestMagnitude.eq {v : ℚ} {m n : Nat} (hm : IsNearestMagnitude v m)
    (hn : IsNearestMagnitude v n) : m = n := by
  wlog hlt : m < n generalizing m n
  · rcases Nat.lt_or_eq_of_le (not_lt.mp hlt) with hgt | heq
    · exact (this hn hm hgt).symm
    · exact heq.symm
  exfalso
  have hsame := le_antisymm (hm n).1 (hn m).1
  have hevenm := (hm n).2 hsame.symm hlt.ne'
  have hevenn := (hn m).2 hsame hlt.ne
  have hbetween : m + 1 < n := by
    obtain ⟨a, rfl⟩ := hevenm
    obtain ⟨b, rfl⟩ := hevenn
    omega
  have hlow : (unitsAt m : ℚ) < unitsAt (m + 1) := by exact_mod_cast unitsAt_strictMono (by omega)
  have hhigh : (unitsAt (m + 1) : ℚ) < unitsAt n := by exact_mod_cast unitsAt_strictMono hbetween
  have hnear := (hm (m + 1)).1
  rcases abs_cases (v - unitsAt m) with h1 | h1 <;> rcases abs_cases (v - unitsAt n) with h2 | h2 <;>
    rcases abs_cases (v - unitsAt (m + 1)) with h3 | h3 <;> linarith

theorem cast_unitsAt_add {k q : Nat} (hq : q ≤ 2 ^ 53) (hk : k = 0 ∨ 2 ^ 52 ≤ q) :
    (unitsAt (k * 2 ^ 52 + q) : ℚ) = q * 2 ^ k := by
  rw [unitsAt_add hq hk, Nat.cast_mul, Nat.cast_pow, Nat.cast_ofNat]

/-- The size of the greatest magnitude of a finite number. -/
theorem cast_unitsAt_last :
    (unitsAt (2045 * 2 ^ 52 + (2 ^ 53 - 1)) : ℚ) = (2 ^ 54 - 2) * 2 ^ 2044 := by
  rw [cast_unitsAt_add (by omega) (by omega), pow_succ 2 2044]
  generalize (2 : ℚ) ^ 2044 = unit
  norm_num
  ring

/-- The size of the magnitude after it, which is a power of two. -/
theorem cast_unitsAt_next : (unitsAt (2046 * 2 ^ 52 + 2 ^ 52) : ℚ) = 2 ^ 54 * 2 ^ 2044 := by
  rw [cast_unitsAt_add (by omega) (by omega), pow_succ 2 2045, pow_succ 2 2044]
  generalize (2 : ℚ) ^ 2044 = unit
  norm_num
  ring

/-- The magnitudes of finite numbers are nearest below the middle between the
greatest of them and the next power of two. -/
theorem IsNearestMagnitude.lt_iff {v : ℚ} {m : Nat} (hm : IsNearestMagnitude v m) :
    m < 2047 * 2 ^ 52 ↔ v < (2 ^ 54 - 1) * 2 ^ 2044 := by
  have hlast := cast_unitsAt_last
  have hnext := cast_unitsAt_next
  have hpos : (0 : ℚ) < 2 ^ 2044 := by positivity
  generalize (2 : ℚ) ^ 2044 = unit at *
  constructor
  · intro hlt
    by_contra hge
    have hle : (unitsAt m : ℚ) ≤ unitsAt (2045 * 2 ^ 52 + (2 ^ 53 - 1)) := by
      exact_mod_cast unitsAt_strictMono.monotone (by omega)
    obtain ⟨hnear, heven⟩ := hm (2046 * 2 ^ 52 + 2 ^ 52)
    rw [hlast] at hle
    have hself : |v - unitsAt m| = v - unitsAt m := abs_of_nonneg (by linarith)
    rw [hnext, hself] at hnear heven
    rcases abs_cases (v - 2 ^ 54 * unit) with ⟨habs, -⟩ | ⟨habs, -⟩
    · linarith
    · -- only the last finite magnitude is as near as the next one, and it is odd
      rw [habs] at hnear heven
      have hodd : Even m := heven (by linarith) (by omega)
      have hunits : (unitsAt m : ℚ) = unitsAt (2045 * 2 ^ 52 + (2 ^ 53 - 1)) := by
        rw [hlast]
        linarith
      have hm : m = 2045 * 2 ^ 52 + (2 ^ 53 - 1) :=
        unitsAt_strictMono.injective (by exact_mod_cast hunits)
      rw [hm] at hodd
      exact absurd hodd (by decide)
  · intro hlt
    by_contra hge
    have hle : (unitsAt (2046 * 2 ^ 52 + 2 ^ 52) : ℚ) ≤ unitsAt m := by
      exact_mod_cast unitsAt_strictMono.monotone (by omega)
    have hnear := (hm (2045 * 2 ^ 52 + (2 ^ 53 - 1))).1
    rw [hnext] at hle
    rw [hlast, abs_of_nonpos (by linarith)] at hnear
    rcases abs_cases (v - (2 ^ 54 - 2) * unit) with ⟨habs, -⟩ | ⟨habs, -⟩ <;> linarith

end TenderSearch.Binary64
