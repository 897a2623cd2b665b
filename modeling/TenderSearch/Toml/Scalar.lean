import TenderSearch.Text.Digits
import TenderSearch.Toml.Text
import TenderSearch.Toml.Value

/-!
# TOML numbers, dates and words

A scalar without quotes is a run of letters, digits and the characters of
signs, points and times. The whole run has to be a word, an integer, a
floating-point number, or a date or time; a date and a time may also be two
runs with one blank between them.
-/

namespace TenderSearch.Toml.Scalar

open TenderSearch.Text (digit? ofDigits)

def digitOf? (base : Nat) (c : Char) : Option Nat :=
  (Json.Token.hexDigit? c).filter fun d => d < base

/-- The digits at the head of a text and what follows them. Single underscores
may stand between digits. -/
def takeGrouped (base : Nat) : List Char → List Nat × List Char
  | [] => ([], [])
  | '_' :: rest => ([], '_' :: rest)
  | c :: rest =>
      match digitOf? base c with
      | none => ([], c :: rest)
      | some d =>
          match rest with
          | '_' :: next :: after =>
              let (digits, tail) := takeGrouped base (next :: after)
              if digits = [] then ([d], rest) else (d :: digits, tail)
          | rest =>
              let (digits, tail) := takeGrouped base rest
              (d :: digits, tail)

def allGrouped? (base : Nat) (text : List Char) : Option Nat :=
  match takeGrouped base text with
  | (d :: digits, []) => some ((d :: digits).foldl (fun n d => base * n + d) 0)
  | _ => none

def sign : List Char → Bool × List Char
  | '-' :: rest => (true, rest)
  | '+' :: rest => (false, rest)
  | rest => (false, rest)

/-- The digits before a point or an exponent: no zero in front of others. -/
def takeWhole? (text : List Char) : Option (List Nat × List Char) :=
  match takeGrouped 10 text with
  | ([], _) => none
  | (0 :: _ :: _, _) => none
  | read => some read

/-- An integer that fits 64 bits with a sign. -/
def inRange? (n : Int) : Option Value :=
  if -(Nat.pow 2 63 : Int) ≤ n ∧ n < Nat.pow 2 63 then some (.integer n) else none

/-- An integer; other bases than ten have a mark and no sign. -/
def integer? : List Char → Option Value
  | '0' :: 'x' :: rest => (allGrouped? 16 rest).bind fun n => inRange? n
  | '0' :: 'o' :: rest => (allGrouped? 8 rest).bind fun n => inRange? n
  | '0' :: 'b' :: rest => (allGrouped? 2 rest).bind fun n => inRange? n
  | text =>
      let (negative, rest) := sign text
      match takeWhole? rest with
      | some (digits, []) =>
          let size : Int := (ofDigits digits : Int)
          inRange? (if negative then -size else size)
      | _ => none

/-- The digits after a point; none where there is no point. -/
def takeFraction? : List Char → Option (Option (List Nat) × List Char)
  | '.' :: rest =>
      match takeGrouped 10 rest with
      | ([], _) => none
      | (digits, rest) => some (some digits, rest)
  | rest => some (none, rest)

/-- The exponent at the end of a text; none where there is no exponent. -/
def exponent? : List Char → Option (Option Int)
  | [] => some none
  | mark :: rest =>
      if mark = 'e' ∨ mark = 'E' then
        let (negative, rest) := sign rest
        (allGrouped? 10 rest).map fun n => some (if negative then -(n : Int) else (n : Int))
      else none

/-- A floating-point number with a fraction or an exponent. One beyond the
range is not a number if it is positive, and not finite if it is negative. -/
def decimal? (text : List Char) : Option Value := do
  let (negative, rest) := sign text
  let (whole, rest) ← takeWhole? rest
  let (fraction, rest) ← takeFraction? rest
  let exponent ← exponent? rest
  if fraction.isNone && exponent.isNone then none
  else
    let places := fraction.getD []
    match Binary64.ofDecimal negative (ofDigits (whole ++ places))
        (exponent.getD 0 - (places.length : Int)) with
    | some x => some (.float (some x))
    | none => if negative then some (.float none) else none

/-- Infinity and the value that is no number. -/
def special? (text : List Char) : Option Value :=
  let (_, rest) := sign text
  if rest = ['i', 'n', 'f'] ∨ rest = ['n', 'a', 'n'] then some (.float none) else none

/-- A number of two digits within bounds. -/
def two? (low high : Nat) (a b : Char) : Option Nat := do
  let n := 10 * (← digit? a) + (← digit? b)
  if low ≤ n ∧ n ≤ high then some n else none

def isLeapYear (year : Nat) : Bool :=
  year % 4 = 0 && (year % 100 ≠ 0 || year % 400 = 0)

def lastDay (year month : Nat) : Nat :=
  if month = 2 then (if isLeapYear year then 29 else 28)
  else if month = 4 ∨ month = 6 ∨ month = 9 ∨ month = 11 then 30
  else 31

/-- A date, and what follows it. -/
def takeDate? : List Char → Option (List Char)
  | a :: b :: c :: d :: '-' :: e :: f :: '-' :: g :: h :: rest => do
      let year := 100 * (← two? 0 99 a b) + (← two? 0 99 c d)
      let month ← two? 1 12 e f
      let _ ← two? 1 (lastDay year month) g h
      return rest
  | _ => none

/-- A time of day with perhaps a fraction of its seconds, and what follows
it. -/
def takeTime? : List Char → Option (List Char)
  | a :: b :: ':' :: c :: d :: ':' :: e :: f :: rest => do
      let _ ← two? 0 23 a b
      let _ ← two? 0 59 c d
      let _ ← two? 0 60 e f
      match rest with
      | '.' :: rest =>
          match TenderSearch.Text.takeDigits rest with
          | ([], _) => none
          | (_, rest) => some rest
      | rest => some rest
  | _ => none

/-- The end of a time that belongs to a date: perhaps an offset. -/
def isOffset : List Char → Bool
  | [] => true
  | ['Z'] => true
  | ['z'] => true
  | [mark, a, b, ':', c, d] =>
      (mark = '+' || mark = '-') && (two? 0 23 a b).isSome && (two? 0 59 c d).isSome
  | _ => false

def isZonedTime (text : List Char) : Bool :=
  (takeTime? text).any isOffset

def isDate (text : List Char) : Bool :=
  takeDate? text == some []

def date? (text : List Char) : Option Value :=
  match takeDate? text with
  | some [] => some .date
  | some (mark :: rest) =>
      if (mark = 'T' ∨ mark = 't') ∧ isZonedTime rest then some .date else none
  | none => if takeTime? text == some [] then some .date else none

/-- The scalar that a run of characters spells. -/
def ofRun? (run : List Char) : Option Value :=
  if run = ['t', 'r', 'u', 'e'] then some (.boolean true)
  else if run = ['f', 'a', 'l', 's', 'e'] then some (.boolean false)
  else (integer? run).orElse fun _ =>
    (decimal? run).orElse fun _ => (special? run).orElse fun _ => date? run

/-- A character of a scalar without quotes. -/
def isRunChar (c : Char) : Bool :=
  c.isAlphanum || c = '+' || c = '-' || c = '_' || c = '.' || c = ':'

/-- The scalar without quotes at the head of a text, and what follows it. -/
def read? (text : List Char) : Option (Value × List Char) :=
  let run := text.takeWhile isRunChar
  let rest := text.dropWhile isRunChar
  match rest with
  | ' ' :: after =>
      let second := after.takeWhile isRunChar
      if isDate run ∧ second ≠ [] then
        if isZonedTime second then some (.date, after.dropWhile isRunChar) else none
      else (ofRun? run).map fun value => (value, rest)
  | rest => (ofRun? run).map fun value => (value, rest)

end TenderSearch.Toml.Scalar
