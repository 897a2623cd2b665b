import TenderSearch.Json.Basic
import TenderSearch.Text.Numeral

/-!
# Tokens of JSON text

A text is cut into marks, words, numbers and strings. A number beyond the
range of floating-point numbers, and a string with half of a surrogate pair,
are spelled correctly but have no value; their tokens carry none.
-/

namespace TenderSearch.Json

inductive Token where
  | openObject
  | closeObject
  | openArray
  | closeArray
  | comma
  | colon
  | null
  | bool (b : Bool)
  | num (value : Option Number)
  | str (value : Option String)

namespace Number

/-- Adds digits to a number for as long as it fits 64 bits, and says how many
digits were taken. -/
def absorb (n taken : Nat) : List Nat → Nat × Nat
  | [] => (n, taken)
  | d :: rest =>
      if 10 * n + d < Nat.pow 2 64 then absorb (10 * n + d) (taken + 1) rest else (n, taken)

/-- Divides by `10 ^ 308` a number of times. -/
def shrink : Nat → Binary64 → Option Binary64
  | 0, x => some x
  | steps + 1, x =>
      if x.isZero then some x
      else do shrink steps (← x.div? (← Binary64.ofDecimal false 1 308))

/-- A 64-bit number times a power of ten. The number is rounded first, and
every product or quotient by a power up to `10 ^ 308` is rounded again; there
is none when the result lies beyond the finite range. -/
def scale? (negative : Bool) (n : Nat) (exponent : Int) : Option Binary64 := do
  let x ← Binary64.nearest negative n 1
  if x.isZero then return x
  else if 308 < exponent then none
  else if 0 ≤ exponent then x.mul? (← Binary64.ofDecimal false 1 exponent)
  else
    let steps := (exponent.natAbs - 1) / 308
    let x ← shrink steps x
    if x.isZero then return x
    else x.div? (← Binary64.ofDecimal false 1 (exponent.natAbs - 308 * steps : Nat))

/-- The value of a numeral. One without point and exponent is an integer if
it fits 64 bits, and every other one is a floating-point number whose digits
count as far as they fit 64 bits. Negative zero is a floating-point number. -/
def ofNumeral? (n : Text.Numeral) : Option Number :=
  let (whole, taken) := absorb 0 0 n.whole
  let dropped := n.whole.length - taken
  if n.fraction.isNone && n.exponent.isNone && dropped == 0 then
    if n.negative then
      if whole = 0 then some (.float (Binary64.zero.flipIf true))
      else if whole ≤ Nat.pow 2 63 then some (.int (-(whole : Int)))
      else (Binary64.nearest true whole 1).map .float
    else some (.int whole)
  else
    let (digits, places) := absorb whole 0 (n.fraction.getD [])
    (scale? n.negative digits
      (n.exponent.getD 0 + (dropped : Int) - (places : Int))).map .float

end Number

namespace Token

def hexDigit? (c : Char) : Option Nat :=
  if '0' ≤ c ∧ c ≤ '9' then some (c.toNat - '0'.toNat)
  else if 'a' ≤ c ∧ c ≤ 'f' then some (c.toNat - 'a'.toNat + 10)
  else if 'A' ≤ c ∧ c ≤ 'F' then some (c.toNat - 'A'.toNat + 10)
  else none

def hex4? (a b c d : Char) : Option Nat := do
  let a ← hexDigit? a
  let b ← hexDigit? b
  let c ← hexDigit? c
  let d ← hexDigit? d
  return ((a * 16 + b) * 16 + c) * 16 + d

def isHighSurrogate (n : Nat) : Bool :=
  0xD800 ≤ n && n < 0xDC00

def isLowSurrogate (n : Nat) : Bool :=
  0xDC00 ≤ n && n < 0xE000

/-- The character of a surrogate pair. -/
def joinSurrogates (high low : Nat) : Char :=
  Char.ofNat (0x10000 + (high - 0xD800) * 0x400 + (low - 0xDC00))

def shortEscape? : Char → Option Char
  | '"' => some '"'
  | '\\' => some '\\'
  | '/' => some '/'
  | 'b' => some '\x08'
  | 'f' => some '\x0c'
  | 'n' => some '\n'
  | 'r' => some '\r'
  | 't' => some '\t'
  | _ => none

/-- The text up to the closing quote, and what follows the quote. -/
def takeQuoted : List Char → Option (List Char × List Char)
  | [] => none
  | '"' :: rest => some ([], rest)
  | '\\' :: c :: rest => (takeQuoted rest).map fun (raw, after) => ('\\' :: c :: raw, after)
  | c :: rest => (takeQuoted rest).map fun (raw, after) => (c :: raw, after)

/-- A piece of the text between quotes: a character, or a 16-bit unit that
was written by its number. -/
inductive Piece where
  | char (c : Char)
  | unit (n : Nat)

/-- The pieces of the text between quotes; none for a wrong escape or a bare
control character. -/
def pieces? : List Char → Option (List Piece)
  | [] => some []
  | '\\' :: 'u' :: a :: b :: c :: d :: rest => do
      let n ← hex4? a b c d
      return .unit n :: (← pieces? rest)
  | '\\' :: c :: rest => do
      let c ← shortEscape? c
      return .char c :: (← pieces? rest)
  | c :: rest =>
      if c.toNat < 0x20 ∨ c = '\\' then none
      else (pieces? rest).map (.char c :: ·)

/-- The characters of the pieces; none where half of a surrogate pair stands
alone. -/
def characters? : List Piece → Option (List Char)
  | [] => some []
  | .char c :: rest => (characters? rest).map (c :: ·)
  | .unit high :: .unit low :: rest =>
      if isHighSurrogate high then
        if isLowSurrogate low then (characters? rest).map (joinSurrogates high low :: ·)
        else none
      else if isLowSurrogate high then none
      else (characters? (.unit low :: rest)).map (Char.ofNat high :: ·)
  | .unit n :: rest =>
      if isHighSurrogate n ∨ isLowSurrogate n then none
      else (characters? rest).map (Char.ofNat n :: ·)

/-- The blanks between tokens. -/
def isGap (c : Char) : Bool :=
  c == ' ' || c == '\n' || c == '\t' || c == '\r'

/-- The token at the head of a text that does not start with a gap. -/
def next? : List Char → Option (Token × List Char)
  | '\x7b' :: rest => some (.openObject, rest)
  | '\x7d' :: rest => some (.closeObject, rest)
  | '[' :: rest => some (.openArray, rest)
  | ']' :: rest => some (.closeArray, rest)
  | ',' :: rest => some (.comma, rest)
  | ':' :: rest => some (.colon, rest)
  | 'n' :: 'u' :: 'l' :: 'l' :: rest => some (.null, rest)
  | 't' :: 'r' :: 'u' :: 'e' :: rest => some (.bool true, rest)
  | 'f' :: 'a' :: 'l' :: 's' :: 'e' :: rest => some (.bool false, rest)
  | '"' :: rest => do
      let (raw, rest) ← takeQuoted rest
      let pieces ← pieces? raw
      return (.str ((characters? pieces).map String.ofList), rest)
  | text => do
      let (n, rest) ← Text.Numeral.strict? text
      return (.num (Number.ofNumeral? n), rest)

theorem takeQuoted_length_le {text raw rest : List Char}
    (h : takeQuoted text = some (raw, rest)) : rest.length ≤ text.length := by
  induction text using takeQuoted.induct generalizing raw rest with
  | case1 => simp [takeQuoted] at h
  | case2 tail =>
      simp only [takeQuoted, Option.some.injEq, Prod.mk.injEq] at h
      rw [h.2]
      exact Nat.le_succ _
  | case3 c tail ih =>
      simp only [takeQuoted, Option.map_eq_some_iff, Prod.mk.injEq, Prod.exists] at h
      obtain ⟨raw', rest', hr, _, rfl⟩ := h
      exact Nat.le_succ_of_le (Nat.le_succ_of_le (ih hr))
  | case4 c tail hquote hescape ih =>
      unfold takeQuoted at h
      split at h
      · simp_all
      · simp_all
      · next heq => exact absurd heq (by simp_all)
      · next heq =>
          cases heq
          simp only [Option.map_eq_some_iff, Prod.mk.injEq, Prod.exists] at h
          obtain ⟨raw', rest', hr, _, rfl⟩ := h
          exact Nat.le_succ_of_le (ih hr)

/-- A token takes at least one character. -/
theorem next?_length_lt {text rest : List Char} {token : Token}
    (h : next? text = some (token, rest)) : rest.length < text.length := by
  unfold next? at h
  split at h
  case h_10 tail =>
    simp only [Option.bind_eq_bind, Option.bind_eq_some_iff, Prod.exists, Option.pure_def,
      Option.some.injEq, Prod.mk.injEq] at h
    obtain ⟨raw, after, hquoted, pieces, _, _, rfl⟩ := h
    exact Nat.lt_succ_of_le (takeQuoted_length_le hquoted)
  case h_11 =>
    simp only [Option.bind_eq_bind, Option.bind_eq_some_iff, Prod.exists, Option.pure_def,
      Option.some.injEq, Prod.mk.injEq] at h
    obtain ⟨n, after, hn, _, rfl⟩ := h
    exact Text.Numeral.strict?_length_lt hn
  all_goals
    simp only [Option.some.injEq, Prod.mk.injEq] at h
    rw [← h.2]
    simp only [List.length_cons]
    omega

def ofText? : List Char → Option (List Token)
  | [] => some []
  | c :: rest =>
      if isGap c then ofText? rest
      else
        match _h : next? (c :: rest) with
        | none => none
        | some (token, after) => (ofText? after).map (token :: ·)
termination_by text => text.length
decreasing_by
  · simp
  · exact next?_length_lt _h

end Token

end TenderSearch.Json
