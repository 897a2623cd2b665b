import TenderSearch.Binary64.Basic
import TenderSearch.Text.Digits

/-!
# Numerals

The spelling of a number: a sign, digits, digits after a point, and an
exponent. Numerals are read in two grammars. The strict one is that of JSON
text: digits on both sides of a point and no zero in front of other digits.
The free one takes the longest numeral at the head of a text, where one side
of the point may be missing and an incomplete exponent is left unread.
-/

namespace TenderSearch.Text

structure Numeral where
  negative : Bool
  whole : List Nat
  fraction : Option (List Nat)
  exponent : Option Int

namespace Numeral

/-- The digits after a point, if the text goes on with one. A point without
digits is an error. -/
def strictFraction? : List Char → Option (Option (List Nat) × List Char)
  | '.' :: rest =>
      match takeDigits rest with
      | ([], _) => none
      | (digits, rest) => some (some digits, rest)
  | rest => some (none, rest)

/-- A sign, which counts as positive where it is missing. -/
def sign : List Char → Bool × List Char
  | '-' :: rest => (true, rest)
  | '+' :: rest => (false, rest)
  | rest => (false, rest)

/-- The exponent after its mark, if it is complete. -/
def exponentDigits? (text : List Char) : Option (Int × List Char) :=
  let (negative, rest) := sign text
  match takeDigits rest with
  | ([], _) => none
  | (digits, rest) =>
      let size : Int := (ofDigits digits : Int)
      some (if negative then -size else size, rest)

/-- The exponent, if the text goes on with one. An incomplete exponent is an
error. -/
def strictExponent? : List Char → Option (Option Int × List Char)
  | 'e' :: rest => (exponentDigits? rest).map fun (e, rest) => (some e, rest)
  | 'E' :: rest => (exponentDigits? rest).map fun (e, rest) => (some e, rest)
  | rest => some (none, rest)

def strictUnsigned? (negative : Bool) (text : List Char) : Option (Numeral × List Char) :=
  match takeDigits text with
  | ([], _) => none
  | (0 :: _ :: _, _) => none
  | (whole, rest) => do
      let (fraction, rest) ← strictFraction? rest
      let (exponent, rest) ← strictExponent? rest
      return (⟨negative, whole, fraction, exponent⟩, rest)

/-- The numeral at the head of a text in the strict grammar, and what follows
it. -/
def strict? : List Char → Option (Numeral × List Char)
  | '-' :: rest => strictUnsigned? true rest
  | text => strictUnsigned? false text

/-- The digits after a point, which may be none. -/
def freeFraction : List Char → Option (List Nat) × List Char
  | '.' :: rest => (some (takeDigits rest).1, (takeDigits rest).2)
  | rest => (none, rest)

/-- The exponent, if the text goes on with a complete one. -/
def freeExponent : List Char → Option Int
  | 'e' :: rest => (exponentDigits? rest).map Prod.fst
  | 'E' :: rest => (exponentDigits? rest).map Prod.fst
  | _ => none

/-- The longest numeral at the head of a text in the free grammar. -/
def free? (text : List Char) : Option Numeral :=
  let (negative, rest) := sign text
  let (whole, rest) := takeDigits rest
  let (fraction, rest) := freeFraction rest
  if whole = [] ∧ fraction.getD [] = [] then none
  else some ⟨negative, whole, fraction, freeExponent rest⟩

/-- The floating-point number nearest to a numeral, if it is in range. -/
def nearest? (n : Numeral) : Option Binary64 :=
  let fraction := n.fraction.getD []
  Binary64.ofDecimal n.negative (ofDigits (n.whole ++ fraction))
    (n.exponent.getD 0 - (fraction.length : Int))

theorem takeDigits_length_lt {text rest : List Char} {d : Nat} {ds : List Nat}
    (h : takeDigits text = (d :: ds, rest)) : rest.length < text.length := by
  cases text with
  | nil => simp [takeDigits] at h
  | cons c tail =>
      unfold takeDigits at h
      split at h
      · have hle := takeDigits_length_le tail
        simp only [Prod.mk.injEq] at h
        rw [h.2] at hle
        exact Nat.lt_succ_of_le hle
      · simp at h

theorem sign_length_le (text : List Char) : (sign text).2.length ≤ text.length := by
  unfold sign
  split <;> simp

theorem strictFraction?_length_le {text rest : List Char} {fraction : Option (List Nat)}
    (h : strictFraction? text = some (fraction, rest)) : rest.length ≤ text.length := by
  unfold strictFraction? at h
  split at h
  · next tail =>
      split at h
      · simp at h
      · next digits after _ hdigits =>
          simp only [Option.some.injEq, Prod.mk.injEq] at h
          have hle := takeDigits_length_le tail
          rw [hdigits, h.2] at hle
          exact Nat.le_succ_of_le hle
  · simp only [Option.some.injEq, Prod.mk.injEq] at h
    exact Nat.le_of_eq (by rw [h.2])

theorem exponentDigits?_length_le {text rest : List Char} {e : Int}
    (h : exponentDigits? text = some (e, rest)) : rest.length ≤ text.length := by
  have hsign := sign_length_le text
  have hdigits := takeDigits_length_le (sign text).2
  unfold exponentDigits? at h
  simp only at h
  split at h
  · simp at h
  · next after _ hafter =>
      rw [hafter] at hdigits
      simp only [Option.some.injEq, Prod.mk.injEq] at h
      rw [← h.2]
      exact Nat.le_trans hdigits hsign

theorem strictExponent?_length_le {text rest : List Char} {e : Option Int}
    (h : strictExponent? text = some (e, rest)) : rest.length ≤ text.length := by
  unfold strictExponent? at h
  split at h
  · simp only [Option.map_eq_some_iff, Prod.mk.injEq, Prod.exists] at h
    obtain ⟨e', rest', he, _, rfl⟩ := h
    exact Nat.le_succ_of_le (exponentDigits?_length_le he)
  · simp only [Option.map_eq_some_iff, Prod.mk.injEq, Prod.exists] at h
    obtain ⟨e', rest', he, _, rfl⟩ := h
    exact Nat.le_succ_of_le (exponentDigits?_length_le he)
  · simp only [Option.some.injEq, Prod.mk.injEq] at h
    exact Nat.le_of_eq (by rw [h.2])

theorem strictUnsigned?_length_lt {negative : Bool} {text rest : List Char} {n : Numeral}
    (h : strictUnsigned? negative text = some (n, rest)) : rest.length < text.length := by
  unfold strictUnsigned? at h
  split at h
  · simp at h
  · simp at h
  · next whole after hne _ hwhole =>
      simp only [Option.bind_eq_bind, Option.bind_eq_some_iff, Prod.exists, Option.pure_def,
        Option.some.injEq, Prod.mk.injEq] at h
      obtain ⟨fraction, mid, hfraction, exponent, last, hexponent, _, rfl⟩ := h
      have h1 := strictFraction?_length_le hfraction
      have h2 := strictExponent?_length_le hexponent
      cases whole with
      | nil => exact (hne rfl).elim
      | cons d ds =>
          have h3 := takeDigits_length_lt hwhole
          omega

/-- A numeral takes at least one character. -/
theorem strict?_length_lt {text rest : List Char} {n : Numeral}
    (h : strict? text = some (n, rest)) : rest.length < text.length := by
  unfold strict? at h
  split at h
  · exact Nat.lt_succ_of_lt (strictUnsigned?_length_lt h)
  · exact strictUnsigned?_length_lt h

end Numeral

end TenderSearch.Text
