import TenderSearch.Proofs.Binary64.Rounding
import TenderSearch.Proofs.Clause.Faults

/-!
# Bounds of comparisons

A comparison compares with the floating-point number that its first value
rounds to. So an integer is compared with exactly if 53 bits hold it, up to its
sign and zeros at its end.
-/

namespace TenderSearch

open Binary64 (RoundsTo)
open Report (Yields)

/-- The rational number that a JSON number stands for. -/
def Json.Number.toRat : Json.Number → ℚ
  | .int n => n
  | .float x => x.toRat

namespace Clause

/-- The fragment that compares a field with a number: an equality, or an
exclusive bound. -/
inductive Compares (field : String) (number : Json.Number) : Comparison → Json → Prop where
  | equal : Compares field number .equal (Fragment.leaf "term" field (.num number))
  | less : Compares field number .less (Fragment.leaf "range" field (.obj [("lt", .num number)]))
  | greater :
      Compares field number .greater (Fragment.leaf "range" field (.obj [("gt", .num number)]))

/-- A number is sent as an integer only where it is one. -/
theorem exists_numberToJson (x : Binary64) :
    ∃ number, numberToJson x = .num number ∧ number.toRat = x.toRat := by
  unfold numberToJson
  split
  next n hwhole =>
    split
    next => exact ⟨.int n, rfl, (Binary64.toInt?_eq_some_iff.mp hwhole).symm⟩
    next => exact ⟨.float x, rfl, rfl⟩
  next => exact ⟨.float x, rfl, rfl⟩

theorem exists_compares (field : String) (number : Json.Number) {comparison : Comparison}
    (hknown : comparison.isKnown = true) :
    ∃ fragment, Compares field number comparison fragment ∧
      comparisonFragment? field (.num number) comparison = some fragment := by
  cases comparison with
  | equal => exact ⟨_, .equal, rfl⟩
  | less => exact ⟨_, .less, rfl⟩
  | greater => exact ⟨_, .greater, rfl⟩
  | other name => cases hknown

section Value

variable {clause : Clause} (hkind : clause.kind = .value)
include hkind

/-- A known comparison with a number depends only on the field and the number. -/
theorem compileAlone_bound {comparison : Comparison}
    (hcomparison : clause.comparison = some comparison) (hknown : comparison.isKnown = true)
    {x : Binary64} (hnumber : clause.values.head?.bind number? = some x) :
    clause.compileAlone = pure (comparisonFragment? clause.field (numberToJson x) comparison) := by
  obtain ⟨number, hjson, -⟩ := exists_numberToJson x
  obtain ⟨fragment, -, hfragment⟩ := exists_compares clause.field number hknown
  simp [compileAlone, hkind, compileComparison, hnumber, hcomparison, hjson, hfragment]

/-- A known comparison with a number compares with just that number. -/
theorem yields_bound {comparison : Comparison} (hcomparison : clause.comparison = some comparison)
    (hknown : comparison.isKnown = true) {x : Binary64}
    (hnumber : clause.values.head?.bind number? = some x) :
    ∃ number fragment, number.toRat = x.toRat ∧
      Compares clause.field number comparison fragment ∧
      Yields clause.compileAlone (some fragment) [] := by
  obtain ⟨number, hjson, hvalue⟩ := exists_numberToJson x
  obtain ⟨fragment, hcompares, hfragment⟩ := exists_compares clause.field number hknown
  refine ⟨number, fragment, hvalue, hcompares, ?_⟩
  rw [compileAlone_bound hkind hcomparison hknown hnumber, hjson, hfragment]
  exact .pure _

theorem yields_no_bound (hnumber : clause.values.head?.bind number? = none) :
    Yields clause.compileAlone none
      [.invalidNumber clause.field (describe clause.values.head?)] := by
  have hcompile : clause.compileAlone = (do
      Report.raise (.invalidNumber clause.field (describe clause.values.head?))
      return none) := by
    simp [compileAlone, hkind, compileComparison, hnumber]
  rw [hcompile]
  exact (Yields.pure none).raise_bind

end Value

/-! ## Integers -/

theorem exists_roundsTo_int {n : Int} (hrange : -2 ^ 63 ≤ n ∧ n < 2 ^ 64) :
    ∃ x, number? (Json.ofInt n) = some x ∧ RoundsTo n x := by
  have hrounded := Binary64.isRounded_ofInt? n
  cases hfloat : Binary64.ofInt? n with
  | some x =>
      rw [hfloat] at hrounded
      exact ⟨x, hfloat, hrounded⟩
  | none =>
      rw [hfloat] at hrounded
      have hsize : |(n : ℚ)| ≤ 2 ^ 64 := by
        have habs : |n| ≤ 2 ^ 64 := abs_le.mpr (by omega)
        exact_mod_cast habs
      have hbound : (2 : ℚ) ^ 64 < 2 ^ 1024 - 2 ^ 970 := by
        have hsmall : (2 : ℚ) ^ 64 < 2 ^ 970 := pow_lt_pow_right₀ one_lt_two (by decide)
        have htwice : (2 : ℚ) ^ 970 + 2 ^ 970 ≤ 2 ^ 1024 := by
          rw [← two_mul, ← pow_succ']
          exact pow_le_pow_right₀ one_le_two (by decide)
        exact lt_sub_iff_add_lt.mpr ((add_lt_add_left hsmall _).trans_le htwice)
      obtain ⟨x, hx⟩ := Binary64.exists_roundsTo (hsize.trans_lt hbound)
      exact absurd hx (hrounded x)

theorem exists_integer_bound {clause : Clause} {comparison : Comparison} {n : Int}
    {others : List Json} (hkind : clause.kind = .value)
    (hcomparison : clause.comparison = some comparison) (hknown : comparison.isKnown = true)
    (hvalues : clause.values = Json.ofInt n :: others) (hrange : -2 ^ 63 ≤ n ∧ n < 2 ^ 64) :
    ∃ x number fragment, RoundsTo n x ∧ number.toRat = x.toRat ∧
      Compares clause.field number comparison fragment ∧
      Yields clause.compileAlone (some fragment) [] := by
  obtain ⟨x, hnumber, hx⟩ := exists_roundsTo_int hrange
  obtain ⟨number, fragment, hbound⟩ := yields_bound hkind hcomparison hknown
    (by rwa [hvalues, List.head?_cons, Option.bind_some])
  exact ⟨x, number, fragment, hx, hbound⟩

/-- A comparison with an integer of 64 bits compares with the floating-point
number that it rounds to. This is the integer itself exactly if 53 bits hold it,
up to its sign and zeros at its end. -/
theorem integer_bound_is_rounded {clause : Clause} {comparison : Comparison} {n : Int}
    {others : List Json} (hkind : clause.kind = .value)
    (hcomparison : clause.comparison = some comparison) (hknown : comparison.isKnown = true)
    (hvalues : clause.values = Json.ofInt n :: others) (hrange : -2 ^ 63 ≤ n ∧ n < 2 ^ 64) :
    ∃ number fragment, Compares clause.field number comparison fragment ∧
      Yields clause.compileAlone (some fragment) [] ∧
      (∃ x, RoundsTo n x ∧ number.toRat = x.toRat) ∧
      (number.toRat = n ↔ ∃ (m : Int) (k : Nat), n = m * 2 ^ k ∧ |m| ≤ 2 ^ 53) := by
  obtain ⟨x, number, fragment, hx, hvalue, hcompares, hyields⟩ :=
    exists_integer_bound hkind hcomparison hknown hvalues hrange
  refine ⟨number, fragment, hcompares, hyields, ⟨x, hx, hvalue⟩, ?_⟩
  rw [hvalue]
  exact hx.toRat_eq_int_iff

/-- A power of two beyond 53 bits is compared with exactly. -/
theorem integer_bound_is_rounded_power :
    (-2 ^ 63 ≤ (2 ^ 63 : Int) ∧ (2 ^ 63 : Int) < 2 ^ 64) ∧
    ∃ number fragment, Compares "price" number .less fragment ∧
      Yields (Clause.compare "price" .less (Json.ofInt (2 ^ 63))).compileAlone
        (some fragment) [] ∧ number.toRat = (2 ^ 63 : Int) := by
  have hrange : -2 ^ 63 ≤ (2 ^ 63 : Int) ∧ (2 ^ 63 : Int) < 2 ^ 64 := by decide
  obtain ⟨number, fragment, hcompares, hyields, -, hexact⟩ :=
    @integer_bound_is_rounded (Clause.compare "price" .less (Json.ofInt (2 ^ 63))) .less (2 ^ 63) []
      rfl rfl rfl rfl hrange
  exact ⟨hrange, number, fragment, hcompares, hyields, hexact.mpr ⟨1, 63, by decide, by decide⟩⟩

/-- An odd number beyond 53 bits is not compared with. -/
theorem integer_bound_is_not_exact :
    ¬ ∃ number fragment, Compares "price" number .equal fragment ∧
      Yields (Clause.compare "price" .equal (Json.ofInt (2 ^ 53 + 1))).compileAlone
        (some fragment) [] ∧ number.toRat = (2 ^ 53 + 1 : Int) := by
  rintro ⟨number, fragment, hcompares, hyields, hvalue⟩
  obtain ⟨x, other, otherFragment, hx, hother, hotherCompares, hotherYields⟩ :=
    @exists_integer_bound (Clause.compare "price" .equal (Json.ofInt (2 ^ 53 + 1))) .equal
      (2 ^ 53 + 1) [] rfl rfl rfl rfl (by decide)
  have hfragment : fragment = otherFragment := by
    have hsame := (hotherYields.run_eq_ok hotherYields (hyields.lenient [])).1
    exact Option.some.inj hsame
  have hnumber : number = other := by
    cases hcompares
    cases hotherCompares
    simp only [Fragment.leaf, Json.obj.injEq, List.cons.injEq, Prod.mk.injEq, Json.num.injEq]
      at hfragment
    exact hfragment.1.2.1.2
  obtain ⟨m, k, hn, hm⟩ := hx.toRat_eq_int_iff.mp (by rw [← hother, ← hnumber, hvalue])
  have hbound := (abs_le.mp hm).2
  cases k with
  | zero => omega
  | succ k =>
      rw [pow_succ 2 k, ← mul_assoc] at hn
      omega

end Clause

end TenderSearch
