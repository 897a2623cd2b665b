import Mathlib.Data.Rat.Lemmas
import TenderSearch.Proofs.Binary64.Magnitudes

/-!
# Rounding to floating-point numbers

A rational number rounds to the nearest number of the format, to one of even
magnitude where two are equally near, and from a bound on to none. Rounding a
quotient finds what it rounds to. An integer is kept exactly if 53 bits hold
it, up to its sign and zeros at its end.
-/

namespace TenderSearch.Binary64

/-! ## Numbers -/

def signOf (negative : Bool) : ℚ :=
  if negative then -1 else 1

/-- The rational number that is represented. -/
def toRat (x : Binary64) : ℚ :=
  signOf x.negative * (x.units / one)

/-- A rational number rounds to a representable one if no other is nearer, and
to one of even magnitude if two are equally near. From the middle between the
greatest finite number and the next power of two on, it rounds to none. -/
structure RoundsTo (q : ℚ) (x : Binary64) : Prop where
  inRange : |q| < 2 ^ 1024 - 2 ^ 970
  nearest : ∀ y : Binary64, |q - x.toRat| ≤ |q - y.toRat|
  even : ∀ y : Binary64, |q - y.toRat| = |q - x.toRat| → y.toRat ≠ x.toRat →
    Even x.magnitude.val

/-- What a rational number rounds to, if it rounds to anything. -/
def IsRounded (q : ℚ) : Option Binary64 → Prop
  | some x => RoundsTo q x
  | none => ∀ x, ¬ RoundsTo q x

theorem cast_one : (one : ℚ) = 2 ^ 1074 := by
  have hone : one = Nat.pow 2 1074 := by
    delta one
    rfl
  -- the power is not to be evaluated
  generalize 1074 = k at hone ⊢
  rw [hone, Nat.pow_eq, Nat.cast_pow, Nat.cast_ofNat]

theorem one_pos : (0 : ℚ) < one := by
  rw [cast_one]
  exact pow_pos two_pos _

theorem div_lt_bound_iff {v : ℚ} :
    v / one < 2 ^ 1024 - 2 ^ 970 ↔ v < (2 ^ 54 - 1) * 2 ^ 2044 := by
  rw [div_lt_iff₀ one_pos, cast_one, sub_mul, sub_mul, one_mul, ← pow_add, ← pow_add, ← pow_add]

theorem abs_signOf_mul (negative : Bool) (q : ℚ) : |signOf negative * q| = |q| := by
  cases negative <;> simp [signOf]

section Distance

variable {q v : ℚ} {negative : Bool} (hq : q = signOf negative * (v / one))
include hq

theorem dist_of_same_sign {x : Binary64} (hx : x.negative = negative) :
    |q - x.toRat| = |v - x.units| / one := by
  rw [hq, toRat, hx, ← mul_sub, abs_signOf_mul, ← sub_div, abs_div, abs_of_pos one_pos]

theorem dist_of_other_sign (hv : 0 ≤ v) {x : Binary64} (hx : x.negative ≠ negative) :
    |q - x.toRat| = (v + x.units) / one := by
  have hsign : signOf x.negative = -signOf negative := by
    generalize x.negative = other at hx
    clear hq
    cases negative <;> cases other <;> simp_all [signOf]
  have hsum : 0 ≤ (v + x.units) / one :=
    div_nonneg (add_nonneg hv (Nat.cast_nonneg _)) one_pos.le
  rw [hq, toRat, hsign, neg_mul, sub_neg_eq_add, ← mul_add, abs_signOf_mul, ← add_div,
    abs_of_nonneg hsum]

theorem dist_units_le (hv : 0 ≤ v) (x : Binary64) :
    |v - x.units| / one ≤ |q - x.toRat| := by
  by_cases hx : x.negative = negative
  · exact (dist_of_same_sign hq hx).ge
  · rw [dist_of_other_sign hq hv hx]
    apply div_le_div_of_nonneg_right _ one_pos.le
    have hunits : (0 : ℚ) ≤ x.units := Nat.cast_nonneg _
    rw [abs_le]
    constructor <;> linarith

/-- As far away as its size, a number of the nearest magnitude has the right
sign, or it is zero. -/
theorem toRat_eq_of_dist (hv : 0 ≤ v) {x : Binary64}
    (hm : IsNearestMagnitude v x.magnitude)
    (hdist : |q - x.toRat| = |v - x.units| / one) :
    x.toRat = signOf negative * (x.units / one) := by
  by_cases hx : x.negative = negative
  · rw [toRat, hx]
  · rw [dist_of_other_sign hq hv hx, div_left_inj' one_pos.ne'] at hdist
    have hunits : (0 : ℚ) ≤ x.units := Nat.cast_nonneg _
    have hzero : (x.units : ℚ) = 0 := by
      have hnear : |v - x.units| ≤ |v - unitsAt 0| := (hm 0).1
      rw [show unitsAt 0 = 0 from rfl, Nat.cast_zero, sub_zero, abs_of_nonneg hv] at hnear
      linarith
    rw [toRat, hzero, zero_div, mul_zero, mul_zero]

theorem roundsTo_of_isNearestMagnitude (hv : 0 ≤ v) {x : Binary64}
    (hm : IsNearestMagnitude v x.magnitude) (hx : x.negative = negative) :
    RoundsTo q x where
  inRange := by
    rw [hq, abs_signOf_mul, abs_of_nonneg (div_nonneg hv one_pos.le), div_lt_bound_iff]
    exact hm.lt_iff.mp x.magnitude.isLt
  nearest y := by
    rw [dist_of_same_sign hq hx]
    apply le_trans _ (dist_units_le hq hv y)
    exact div_le_div_of_nonneg_right (hm y.magnitude).1 one_pos.le
  even y hdist hne := by
    rw [dist_of_same_sign hq hx] at hdist
    have hle := dist_units_le hq hv y
    rw [hdist, div_le_div_iff_of_pos_right one_pos] at hle
    have hunits : |v - y.units| = |v - x.units| := le_antisymm hle (hm y.magnitude).1
    apply (hm y.magnitude).2 hunits
    intro hsame
    -- a number of the same magnitude that is as near is the same number
    have heq : y.units = x.units := congrArg unitsAt hsame
    apply hne
    rw [toRat_eq_of_dist hq hv (hsame ▸ hm) (by rw [hdist, hunits]), toRat, hx, heq]

/-- Whatever the exact value rounds to is the number of the nearest magnitude. -/
theorem toRat_eq_of_roundsTo (hv : 0 ≤ v) {x z : Binary64}
    (hm : IsNearestMagnitude v z.magnitude) (hz : z.negative = negative)
    (hx : RoundsTo q x) : x.toRat = z.toRat := by
  by_contra hne
  have hzq : RoundsTo q z := roundsTo_of_isNearestMagnitude hq hv hm hz
  have hdist : |q - x.toRat| = |q - z.toRat| := le_antisymm (hx.nearest z) (hzq.nearest x)
  have heven : Even x.magnitude.val := hx.even z hdist.symm (Ne.symm hne)
  have hunits : |v - x.units| = |v - z.units| := by
    refine le_antisymm ?_ (hm x.magnitude).1
    have hle := dist_units_le hq hv x
    rwa [hdist, dist_of_same_sign hq hz, div_le_div_iff_of_pos_right one_pos] at hle
  have hxm : IsNearestMagnitude v x.magnitude := by
    intro n
    refine ⟨?_, fun _ _ => heven⟩
    exact hunits.le.trans (hm n).1
  have hsame : x.units = z.units := congrArg unitsAt (hxm.eq hm)
  apply hne
  rw [toRat_eq_of_dist hq hv hxm (by rw [hdist, dist_of_same_sign hq hz, hsame]), hsame, toRat, hz]

end Distance

theorem exists_isNearestMagnitude {v : ℚ} (hv : 0 ≤ v) : ∃ m, IsNearestMagnitude v m := by
  refine ⟨roundMagnitude v.num.toNat v.den, ?_⟩
  have hnum : (v.num.toNat : ℚ) = v.num := by
    exact_mod_cast Int.toNat_of_nonneg (Rat.num_nonneg.mpr hv)
  have hnearest := isNearestMagnitude_roundMagnitude v.num.toNat v.den_pos
  rwa [hnum, Rat.num_div_den v] at hnearest

theorem eq_signOf_mul_abs (q : ℚ) : q = signOf (decide (q < 0)) * (|q| * one / one) := by
  rw [mul_div_cancel_right₀ _ one_pos.ne', signOf]
  by_cases hneg : q < 0
  · simp [hneg, abs_of_neg hneg]
  · simp [hneg, abs_of_nonneg (not_lt.mp hneg)]

theorem exists_nearest {q : ℚ} (hrange : |q| < 2 ^ 1024 - 2 ^ 970) :
    ∃ x : Binary64, x.negative = decide (q < 0) ∧
      IsNearestMagnitude (|q| * one) x.magnitude := by
  obtain ⟨m, hm⟩ := exists_isNearestMagnitude (mul_nonneg (abs_nonneg q) one_pos.le)
  have hlt : m < 2047 * 2 ^ 52 := by
    apply hm.lt_iff.mpr
    rwa [← div_lt_bound_iff, mul_div_cancel_right₀ _ one_pos.ne']
  exact ⟨⟨decide (q < 0), ⟨m, hlt⟩⟩, rfl, hm⟩

/-- Every rational number in range rounds to a number. -/
theorem exists_roundsTo {q : ℚ} (hrange : |q| < 2 ^ 1024 - 2 ^ 970) : ∃ x, RoundsTo q x := by
  obtain ⟨x, hsign, hm⟩ := exists_nearest hrange
  exact ⟨x, roundsTo_of_isNearestMagnitude (eq_signOf_mul_abs q)
    (mul_nonneg (abs_nonneg q) one_pos.le) hm hsign⟩

/-- It rounds to one number only, up to the sign of zero. -/
theorem RoundsTo.toRat_unique {q : ℚ} {x y : Binary64} (hx : RoundsTo q x) (hy : RoundsTo q y) :
    x.toRat = y.toRat := by
  have hv : 0 ≤ |q| * one := mul_nonneg (abs_nonneg q) one_pos.le
  obtain ⟨z, hsign, hm⟩ := exists_nearest hx.inRange
  rw [toRat_eq_of_roundsTo (eq_signOf_mul_abs q) hv hm hsign hx,
    toRat_eq_of_roundsTo (eq_signOf_mul_abs q) hv hm hsign hy]

theorem isRounded_nearest (negative : Bool) (num : Nat) {den : Nat} (hden : 0 < den) :
    IsRounded (signOf negative * (num / den)) (nearest negative num den) := by
  have hm := isNearestMagnitude_roundMagnitude (num * one) hden
  have hv : (0 : ℚ) ≤ (num * one : Nat) / den :=
    div_nonneg (Nat.cast_nonneg _) (Nat.cast_nonneg _)
  have hq : signOf negative * (num / den : ℚ) =
      signOf negative * ((num * one : Nat) / den / one) := by
    rw [Nat.cast_mul, div_right_comm, mul_div_cancel_right₀ _ one_pos.ne']
  by_cases hlt : roundMagnitude (num * one) den < 2047 * 2 ^ 52
  · have hsome : nearest negative num den = some ⟨negative, ⟨_, hlt⟩⟩ := dif_pos hlt
    rw [hsome]
    exact roundsTo_of_isNearestMagnitude hq hv hm rfl
  · have hnone : nearest negative num den = none := dif_neg hlt
    rw [hnone]
    intro x hx
    apply hlt
    apply hm.lt_iff.mpr
    have hrange := hx.inRange
    rwa [hq, abs_signOf_mul, abs_of_nonneg (div_nonneg hv one_pos.le), div_lt_bound_iff] at hrange

theorem negative_of_nearest {negative : Bool} {num den : Nat} {x : Binary64}
    (hx : nearest negative num den = some x) : x.negative = negative := by
  unfold nearest at hx
  dsimp only at hx
  split at hx
  next => rw [← Option.some.inj hx]
  next => cases hx

/-! ## Integers -/

theorem signOf_mul_natAbs (n : Int) : signOf (decide (n < 0)) * n.natAbs = (n : ℚ) := by
  rw [Nat.cast_natAbs, signOf]
  by_cases hneg : n < 0
  · simp [hneg, abs_of_neg hneg]
  · simp [hneg, abs_of_nonneg (not_lt.mp hneg)]

theorem isRounded_ofInt? (n : Int) : IsRounded n (ofInt? n) := by
  have hrounded := isRounded_nearest (decide (n < 0)) n.natAbs Nat.one_pos
  rwa [Nat.cast_one, div_one, signOf_mul_natAbs] at hrounded

theorem negative_of_ofInt? {n : Int} {x : Binary64} (hx : ofInt? n = some x) :
    x.negative = decide (n < 0) :=
  negative_of_nearest hx

/-- Significands of up to 53 bits can be shifted by any number of places. -/
theorem exists_unitsAt {q : Nat} (hq : q ≤ 2 ^ 53) (k : Nat) : ∃ m, unitsAt m = q * 2 ^ k := by
  induction k generalizing q with
  | zero => exact ⟨0 * 2 ^ 52 + q, unitsAt_add hq (.inl rfl)⟩
  | succ k ih =>
      by_cases hnormal : 2 ^ 52 ≤ q
      · exact ⟨_, unitsAt_add hq (.inr hnormal)⟩
      · obtain ⟨m, hm⟩ := ih (q := 2 * q) (by omega)
        exact ⟨m, by rw [hm]; ring⟩

theorem toRat_eq_intCast_iff {x : Binary64} {n : Int} :
    x.toRat = n ↔ (x.units : Int) = (if x.negative then -n else n) * one := by
  rw [toRat, signOf]
  split
  next =>
    rw [neg_one_mul, neg_eq_iff_eq_neg, div_eq_iff one_pos.ne']
    norm_cast
  next =>
    rw [one_mul, div_eq_iff one_pos.ne']
    norm_cast

/-- The integer of a number is the one that it equals. -/
theorem toInt?_eq_some_iff {x : Binary64} {n : Int} : x.toInt? = some n ↔ x.toRat = n := by
  have hone : 0 < one := Nat.cast_pos.mp one_pos
  rw [toRat_eq_intCast_iff, toInt?]
  constructor
  · intro hwhole
    split at hwhole
    next hmod =>
      have hunits : (x.units : Int) = (x.units / one : Nat) * one := by
        exact_mod_cast (Nat.div_mul_cancel (Nat.dvd_of_mod_eq_zero hmod)).symm
      rw [Option.some.injEq] at hwhole
      rw [← hwhole, hunits]
      -- the unit is not to be evaluated
      generalize x.units / one = size, one = unit
      split <;> simp
    next => cases hwhole
  · intro hunits
    generalize hk : (if x.negative = true then -n else n) = k at hunits
    have hnonneg : 0 ≤ k := by
      by_contra hneg
      have hlt : k * one < 0 := mul_neg_of_neg_of_pos (not_le.mp hneg) (by exact_mod_cast hone)
      omega
    obtain ⟨size, rfl⟩ := Int.eq_ofNat_of_zero_le hnonneg
    have hnat : x.units = size * one := by exact_mod_cast hunits
    rw [hnat, Nat.mul_mod_left, if_pos rfl, Nat.mul_div_cancel _ hone, Option.some.injEq]
    rw [← hk]
    cases x.negative <;> simp

theorem exists_shifted {a q j k : Nat} (heq : a * 2 ^ j = q * 2 ^ k) (hq : q ≤ 2 ^ 53) :
    ∃ m l, a = m * 2 ^ l ∧ m ≤ 2 ^ 53 := by
  rcases Nat.le_total j k with hle | hle
  · refine ⟨q, k - j, Nat.eq_of_mul_eq_mul_right (Nat.two_pow_pos j) ?_, hq⟩
    rw [heq, Nat.mul_assoc, ← Nat.pow_add, Nat.sub_add_cancel hle]
  · refine ⟨a, 0, by simp, le_trans ?_ hq⟩
    have hcancel : a * 2 ^ (j - k) = q := by
      apply Nat.eq_of_mul_eq_mul_right (Nat.two_pow_pos k)
      rw [Nat.mul_assoc, ← Nat.pow_add, Nat.sub_add_cancel hle, heq]
    rw [← hcancel]
    exact Nat.le_mul_of_pos_right _ (Nat.two_pow_pos _)

theorem exists_significand_of_toRat {n : Int} {x : Binary64} (hx : x.toRat = n) :
    ∃ (m : Int) (k : Nat), n = m * 2 ^ k ∧ |m| ≤ 2 ^ 53 := by
  obtain ⟨k, q, hmagnitude, hq, hk⟩ := exists_significand x.magnitude
  have hunits : (n.natAbs : ℚ) * 2 ^ 1074 = q * 2 ^ k := by
    have hsize := congrArg Int.natAbs (toRat_eq_intCast_iff.mp hx)
    have hsign : (if x.negative = true then -n else n).natAbs = n.natAbs := by
      split <;> simp
    rw [Int.natAbs_mul, hsign, Int.natAbs_natCast, Int.natAbs_natCast, units, hmagnitude] at hsize
    rw [← cast_unitsAt_add hq.le hk, hsize, Nat.cast_mul, cast_one]
  generalize 1074 = j at hunits
  obtain ⟨m, l, hn, hm⟩ := exists_shifted (by exact_mod_cast hunits) hq.le
  have hbound : |(m : Int)| ≤ 2 ^ 53 := by
    rw [Nat.abs_cast]
    exact_mod_cast hm
  rcases Int.natAbs_eq n with hsign | hsign <;> rw [hsign, hn]
  · exact ⟨m, l, by push_cast; rfl, hbound⟩
  · exact ⟨-m, l, by push_cast; ring, by rwa [abs_neg]⟩

/-- Integers in range with significands of 53 bits are numbers. -/
theorem exists_toRat_eq {m : Int} {k : Nat} (hm : |m| ≤ 2 ^ 53)
    (hrange : |((m * 2 ^ k : Int) : ℚ)| < 2 ^ 1024 - 2 ^ 970) :
    ∃ z : Binary64, z.toRat = (m * 2 ^ k : Int) := by
  generalize hn : m * 2 ^ k = n at hrange ⊢
  rw [Int.abs_eq_natAbs] at hm
  obtain ⟨y, hy⟩ : ∃ y, (unitsAt y : ℚ) = n.natAbs * one := by
    rw [cast_one]
    generalize 1074 = j
    obtain ⟨y, hy⟩ := exists_unitsAt (q := m.natAbs) (by omega) (k + j)
    refine ⟨y, ?_⟩
    rw [hy, ← hn, Int.natAbs_mul, Int.natAbs_pow]
    push_cast
    ring
  have hlt : y < 2047 * 2 ^ 52 := by
    apply (isNearestMagnitude_unitsAt y).lt_iff.mpr
    rw [hy, ← div_lt_bound_iff, mul_div_cancel_right₀ _ one_pos.ne']
    rwa [← Int.cast_abs, Int.abs_eq_natAbs, Int.cast_natCast] at hrange
  refine ⟨⟨decide (n < 0), ⟨y, hlt⟩⟩, ?_⟩
  change signOf (decide (n < 0)) * (unitsAt y / one) = n
  rw [hy, mul_div_cancel_right₀ _ one_pos.ne', signOf_mul_natAbs]

/-- An integer is kept by rounding exactly if it is a significand of 53 bits up
to its sign and zeros at the end. -/
theorem RoundsTo.toRat_eq_int_iff {n : Int} {x : Binary64} (hx : RoundsTo n x) :
    x.toRat = n ↔ ∃ (m : Int) (k : Nat), n = m * 2 ^ k ∧ |m| ≤ 2 ^ 53 := by
  constructor
  · exact exists_significand_of_toRat
  · rintro ⟨m, k, rfl, hm⟩
    obtain ⟨z, hz⟩ := exists_toRat_eq hm hx.inRange
    have hle := hx.nearest z
    rw [hz, sub_self, abs_zero] at hle
    exact (sub_eq_zero.mp (abs_nonpos_iff.mp hle)).symm

end TenderSearch.Binary64
