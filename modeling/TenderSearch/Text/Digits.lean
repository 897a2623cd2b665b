/-!
# Decimal digits

Reading runs of decimal digits and whole integers written in them.
-/

namespace TenderSearch.Text

def digit? (c : Char) : Option Nat :=
  if '0' ≤ c ∧ c ≤ '9' then some (c.toNat - '0'.toNat) else none

/-- The digits at the head of a text, and what follows them. -/
def takeDigits : List Char → List Nat × List Char
  | [] => ([], [])
  | c :: rest =>
      match digit? c with
      | some d =>
          let tail := takeDigits rest
          (d :: tail.1, tail.2)
      | none => ([], c :: rest)

def ofDigits (digits : List Nat) : Nat :=
  digits.foldl (fun n d => 10 * n + d) 0

/-- The decimal digits of a number, most significant first. -/
def digitsOf (n : Nat) : List Char :=
  Nat.toDigits 10 n

/-- A natural number spelled by digits only. -/
def nat? (text : List Char) : Option Nat :=
  match takeDigits text with
  | (d :: ds, []) => some (ofDigits (d :: ds))
  | _ => none

/-- A natural number, which may carry a plus sign. -/
def signedNat? : List Char → Option Nat
  | '+' :: rest => nat? rest
  | text => nat? text

def int? : List Char → Option Int
  | '-' :: rest => (nat? rest).map fun n => -(n : Int)
  | '+' :: rest => (nat? rest).map fun n => (n : Int)
  | text => (nat? text).map fun n => (n : Int)

/-- An integer that fits 32 bits, with an optional sign. -/
def int32? (text : List Char) : Option Int :=
  (int? text).filter fun n => -(Nat.pow 2 31 : Int) ≤ n ∧ n < Nat.pow 2 31

theorem takeDigits_length_le (text : List Char) :
    (takeDigits text).2.length ≤ text.length := by
  induction text with
  | nil => simp [takeDigits]
  | cons c rest ih =>
      unfold takeDigits
      split
      · exact Nat.le_succ_of_le ih
      · exact Nat.le_refl _

end TenderSearch.Text
