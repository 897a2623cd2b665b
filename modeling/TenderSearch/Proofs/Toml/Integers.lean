import TenderSearch.Toml.Printer
import TenderSearch.Toml.Scalar

/-!
# Integers in TOML text

An integer is written in decimal digits without a zero in front of others, so it
is read as a run of digits again, and as the same number if it fits 64 bits.
-/

namespace TenderSearch.Toml

open TenderSearch.Text (digitsOf ofDigits)

/-! ## Digits -/

/-- What a decimal digit stands for. -/
def digitValue (c : Char) : Nat :=
  c.toNat - '0'.toNat

theorem isDigit_of_mem_digitsOf {n : Nat} {c : Char} (hc : c ∈ digitsOf n) : c.isDigit = true :=
  Nat.isDigit_of_mem_toDigits (by decide) (by decide) hc

theorem ofDigits_map_digitsOf (n : Nat) : ofDigits ((digitsOf n).map digitValue) = n := by
  unfold ofDigits
  rw [List.foldl_map]
  exact Nat.ofDigitChars_ten_toDigits

/-- The digits of a number start with zero only if the number is zero. -/
theorem head?_digitsOf_ne_zero {n : Nat} (hn : 0 < n) : (digitsOf n).head? ≠ some '0' := by
  induction n using Nat.strongRecOn with
  | ind n ih =>
      unfold digitsOf at ih ⊢
      by_cases hlt : n < 10
      · rw [Nat.toDigits_of_lt_base hlt, List.head?_cons, ne_eq, Option.some.injEq,
          Nat.digitChar_eq_zero]
        omega
      · have hhigher := ih (n / 10) (by omega) (by omega)
        have hsome : (Nat.toDigits 10 (n / 10)).head?.isSome := by
          simp [List.isSome_head?, Nat.toDigits_ne_nil]
        rw [Nat.toDigits_of_base_le (by decide) (by omega), List.head?_append,
          Option.or_of_isSome hsome]
        exact hhigher

/-- Zero is the only digit that stands for zero. -/
theorem eq_zero_of_digitValue {c : Char} (hc : c.isDigit = true) (hvalue : digitValue c = 0) :
    c = '0' := by
  rw [Char.isDigit_iff_toNat] at hc
  have hnat : c.toNat = '0'.toNat := Nat.le_antisymm (Nat.le_of_sub_eq_zero hvalue) hc.1
  exact Char.toNat_inj.mp hnat

theorem digitValue_lt {c : Char} (hc : c.isDigit = true) : digitValue c < 10 := by
  have hle : c.toNat ≤ '9'.toNat := (Char.isDigit_iff_toNat.mp hc).2
  have hnine : '9'.toNat = 57 := rfl
  have hzero : '0'.toNat = 48 := rfl
  unfold digitValue
  omega

namespace Scalar

theorem digitOf?_of_isDigit {c : Char} (hc : c.isDigit = true) :
    digitOf? 10 c = some (digitValue c) := by
  have hrange : '0' ≤ c ∧ c ≤ '9' := by
    simpa [Char.isDigit, Char.le_def, and_comm] using hc
  have hsmall := digitValue_lt hc
  unfold digitOf? Json.Token.hexDigit?
  rw [if_pos hrange]
  exact Option.filter_some_pos (by simpa [digitValue] using hsmall)

theorem takeGrouped_of_isDigit {text : List Char} (htext : ∀ c ∈ text, c.isDigit = true) :
    takeGrouped 10 text = (text.map digitValue, []) := by
  induction text with
  | nil => rfl
  | cons c rest ih =>
      obtain ⟨hc, hrest⟩ := List.forall_mem_cons.mp htext
      have hmark : c ≠ '_' := by
        rintro rfl
        cases hc
      have htail := ih hrest
      rw [takeGrouped.eq_3 10 c rest hmark, digitOf?_of_isDigit hc]
      dsimp only
      split
      next next after => exact absurd (hrest '_' List.mem_cons_self) (by decide)
      next => rw [htail, List.map_cons]

theorem takeWhole?_digitsOf (n : Nat) :
    takeWhole? (digitsOf n) = some ((digitsOf n).map digitValue, []) := by
  unfold takeWhole?
  rw [takeGrouped_of_isDigit fun c => isDigit_of_mem_digitsOf]
  split
  next hnone =>
    simp only [Prod.mk.injEq, List.map_eq_nil_iff] at hnone
    exact absurd hnone.1 Nat.toDigits_ne_nil
  next hzero =>
    simp only [Prod.mk.injEq, List.map_eq_cons_iff] at hzero
    obtain ⟨⟨c, after, hdigits, hvalue, d, others, rfl, -⟩, -⟩ := hzero
    have hc : c = '0' :=
      eq_zero_of_digitValue (isDigit_of_mem_digitsOf (hdigits ▸ List.mem_cons_self)) hvalue
    rcases Nat.eq_zero_or_pos n with rfl | hn
    · rw [digitsOf, Nat.toDigits_zero] at hdigits
      cases hdigits
    · refine absurd ?_ (head?_digitsOf_ne_zero hn)
      rw [hdigits, hc, List.head?_cons]
  next => rfl

/-- A mark of another base is no digit. -/
theorem digitsOf_ne_marked {n : Nat} {mark : Char} (hmark : mark.isDigit = false)
    (rest : List Char) : digitsOf n ≠ '0' :: mark :: rest := by
  intro hdigits
  have hdigit : mark.isDigit = true :=
    isDigit_of_mem_digitsOf (n := n) (by simp [hdigits])
  rw [hmark] at hdigit
  cases hdigit

theorem sign_digitsOf (n : Nat) : sign (digitsOf n) = (false, digitsOf n) := by
  apply sign.eq_3
  · intro rest hdigits
    exact absurd (isDigit_of_mem_digitsOf (n := n) (hdigits ▸ List.mem_cons_self)) (by decide)
  · intro rest hdigits
    exact absurd (isDigit_of_mem_digitsOf (n := n) (hdigits ▸ List.mem_cons_self)) (by decide)

end Scalar

/-! ## Integers -/

/-- A minus sign in front of the digits of a negative integer. -/
theorem writeInteger_eq (n : Int) :
    writeInteger n = if n < 0 then '-' :: digitsOf n.natAbs else digitsOf n.natAbs := by
  rw [writeInteger, Json.Number.render]
  split
  · simp
  · simp

theorem isRunChar_of_mem_writeInteger {n : Int} {c : Char} (hc : c ∈ writeInteger n) :
    Scalar.isRunChar c = true := by
  have hdigit (hc : c ∈ digitsOf n.natAbs) : Scalar.isRunChar c = true := by
    simp [Scalar.isRunChar, Char.isAlphanum, isDigit_of_mem_digitsOf hc]
  rw [writeInteger_eq] at hc
  split at hc
  · rcases List.mem_cons.mp hc with rfl | hc
    · rfl
    · exact hdigit hc
  · exact hdigit hc

/-- An integer starts with its sign or with a digit. -/
theorem head?_writeInteger (n : Int) :
    ∃ c rest, writeInteger n = c :: rest ∧ (c = '-' ∨ c.isDigit = true) := by
  rw [writeInteger_eq]
  split
  · exact ⟨_, _, rfl, .inl rfl⟩
  · have hsome : digitsOf n.natAbs ≠ [] := Nat.toDigits_ne_nil
    obtain ⟨c, rest, hdigits⟩ := List.exists_cons_of_ne_nil hsome
    have hc : c ∈ digitsOf n.natAbs := hdigits ▸ List.mem_cons_self
    exact ⟨c, rest, hdigits, .inr (isDigit_of_mem_digitsOf hc)⟩

namespace Scalar

theorem integer?_writeInteger (n : Int) : integer? (writeInteger n) = inRange? n := by
  have hvalue := ofDigits_map_digitsOf n.natAbs
  rw [writeInteger_eq]
  split
  next hnegative =>
    rw [integer?.eq_4 _ (by simp) (by simp) (by simp)]
    simp only [sign, takeWhole?_digitsOf, hvalue, if_true]
    congr 1
    omega
  next hnonnegative =>
    rw [integer?.eq_4 _ (digitsOf_ne_marked rfl) (digitsOf_ne_marked rfl) (digitsOf_ne_marked rfl)]
    simp only [sign_digitsOf, takeWhole?_digitsOf, hvalue, Bool.false_eq_true, if_false]
    congr 1
    omega

theorem ofRun?_writeInteger {n : Int} (hn : inRange? n = some (.integer n)) :
    ofRun? (writeInteger n) = some (.integer n) := by
  obtain ⟨c, rest, hwritten, hc⟩ := head?_writeInteger n
  have hword {letter : Char} (hletter : letter ≠ '-' ∧ letter.isDigit = false)
      (word : List Char) : writeInteger n ≠ letter :: word := by
    rw [hwritten]
    rintro ⟨⟩
    rcases hc with rfl | hc
    · exact hletter.1 rfl
    · rw [hletter.2] at hc
      cases hc
  unfold ofRun?
  rw [if_neg (hword (by decide) _), if_neg (hword (by decide) _), integer?_writeInteger, hn]
  rfl

/-- A scalar ends with its line. -/
theorem read?_line {run rest : List Char} {value : Value}
    (hrun : ∀ c ∈ run, isRunChar c = true) (hvalue : ofRun? run = some value) :
    read? (run ++ '\n' :: rest) = some (value, '\n' :: rest) := by
  have htaken : (run ++ '\n' :: rest).takeWhile isRunChar = run := by
    rw [List.takeWhile_append_of_pos hrun, List.takeWhile_cons_of_neg (by decide), List.append_nil]
  have hleft : (run ++ '\n' :: rest).dropWhile isRunChar = '\n' :: rest := by
    rw [List.dropWhile_append_of_pos hrun, List.dropWhile_cons_of_neg (by decide)]
  unfold read?
  rw [htaken, hleft]
  change (ofRun? run).map _ = _
  rw [hvalue, Option.map_some]

theorem read?_writeInteger {n : Int} (hn : inRange? n = some (.integer n)) (rest : List Char) :
    read? (writeInteger n ++ '\n' :: rest) = some (.integer n, '\n' :: rest) :=
  read?_line (fun _ => isRunChar_of_mem_writeInteger) (ofRun?_writeInteger hn)

end Scalar

end TenderSearch.Toml
