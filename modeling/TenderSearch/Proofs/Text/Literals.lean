import TenderSearch.Proofs.Toml.Integers
import TenderSearch.Text.Blank
import TenderSearch.Text.Numeral

/-!
# Literals of numbers

A number is written as a numeral or as a word for an infinite or undefined one.
A literal may start with shorter ones, and its own start need not be one. What
is read at the head of a text is the longest literal there, if it is a numeral.
-/

namespace TenderSearch.Text

open TenderSearch.Toml (digitValue)

/-! ## Runs of digits -/

theorem digit?_eq (c : Char) : digit? c = if c.isDigit then some (digitValue c) else none := by
  have hrange : c.isDigit = true ↔ '0' ≤ c ∧ c ≤ '9' := by
    simp [Char.isDigit, Char.le_def]
  unfold digit?
  simp only [hrange, digitValue]

theorem takeDigits_eq (text : List Char) :
    takeDigits text = ((text.takeWhile Char.isDigit).map digitValue, text.dropWhile Char.isDigit) := by
  induction text with
  | nil => rfl
  | cons c rest ih =>
      rw [takeDigits, digit?_eq]
      by_cases hc : c.isDigit <;> simp [hc, ih]

/-- A run of decimal digits, which may be empty. -/
def IsDigits (text : List Char) : Prop :=
  ∀ c ∈ text, c.isDigit = true

instance (text : List Char) : Decidable (IsDigits text) :=
  List.decidableBAll (fun c : Char => c.isDigit = true) text

theorem exists_digits (text : List Char) :
    ∃ digits rest, text = digits ++ rest ∧ IsDigits digits ∧
      takeDigits text = (digits.map digitValue, rest) :=
  ⟨text.takeWhile Char.isDigit, text.dropWhile Char.isDigit, List.takeWhile_append_dropWhile.symm,
    fun _ hc => List.all_eq_true.mp List.all_takeWhile _ hc, takeDigits_eq text⟩

theorem takeDigits_append {digits : List Char} (hdigits : IsDigits digits) (rest : List Char) :
    takeDigits (digits ++ rest) =
      ((digits ++ rest.takeWhile Char.isDigit).map digitValue, rest.dropWhile Char.isDigit) := by
  rw [takeDigits_eq, List.takeWhile_append_of_pos hdigits, List.dropWhile_append_of_pos hdigits]

/-! ## Signs -/

/-- A sign, or nothing for a positive number. -/
inductive IsSign : List Char → Bool → Prop where
  | none : IsSign [] false
  | plus : IsSign ['+'] false
  | minus : IsSign ['-'] true

/-- The spelling of an integer: an optional sign and at least one digit. -/
inductive SpellsInteger : List Char → Int → Prop where
  | mk {mark digits : List Char} {negative : Bool} (hmark : IsSign mark negative)
      (hdigits : IsDigits digits) (hne : digits ≠ []) :
      SpellsInteger (mark ++ digits)
        (if negative then -(ofDigits (digits.map digitValue) : Int)
          else ofDigits (digits.map digitValue))

namespace Numeral

/-- The text does not go on with a sign. -/
def NoSignAhead (text : List Char) : Prop :=
  ∀ c ∈ text.head?, c ≠ '+' ∧ c ≠ '-'

theorem sign_append {mark text : List Char} {negative : Bool} (hmark : IsSign mark negative)
    (htext : NoSignAhead text) : sign (mark ++ text) = (negative, text) := by
  cases hmark with
  | none =>
      apply sign.eq_3
      · rintro rest rfl
        exact (htext '-' rfl).2 rfl
      · rintro rest rfl
        exact (htext '+' rfl).1 rfl
  | plus => rfl
  | minus => rfl

theorem exists_sign (text : List Char) :
    ∃ mark, text = mark ++ (sign text).2 ∧ IsSign mark (sign text).1 := by
  unfold sign
  split
  · exact ⟨['-'], rfl, .minus⟩
  · exact ⟨['+'], rfl, .plus⟩
  · exact ⟨[], rfl, .none⟩

/-! ## Digits around a point -/

/-- Digits, digits with a point and perhaps more digits behind them, or a point
and digits behind it. -/
inductive IsBody : List Char → List Char → Option (List Char) → Prop where
  | whole {digits : List Char} (hdigits : IsDigits digits) (hne : digits ≠ []) :
      IsBody digits digits none
  | pointed {digits others : List Char} (hdigits : IsDigits digits) (hne : digits ≠ [])
      (hothers : IsDigits others) : IsBody (digits ++ '.' :: others) digits (some others)
  | fraction {others : List Char} (hothers : IsDigits others) (hne : others ≠ []) :
      IsBody ('.' :: others) [] (some others)

/-- The mark in front of an exponent. -/
def IsMark (c : Char) : Prop :=
  c = 'e' ∨ c = 'E'

/-- The text is at its end, or goes on with neither a digit nor a point. -/
def NoBodyAhead (text : List Char) : Prop :=
  ∀ c ∈ text.head?, c.isDigit = false ∧ c ≠ '.'

theorem IsMark.noBodyAhead {mark : Char} (hmark : IsMark mark) (rest : List Char) :
    NoBodyAhead (mark :: rest) := by
  rintro c ⟨⟩
  rcases hmark with rfl | rfl <;> decide

theorem NoBodyAhead.takeWhile_eq {text : List Char} (htext : NoBodyAhead text) :
    text.takeWhile Char.isDigit = [] := by
  cases text with
  | nil => rfl
  | cons c rest => exact List.takeWhile_cons_of_neg (by simp [(htext c rfl).1])

theorem NoBodyAhead.dropWhile_eq {text : List Char} (htext : NoBodyAhead text) :
    text.dropWhile Char.isDigit = text := by
  cases text with
  | nil => rfl
  | cons c rest => exact List.dropWhile_cons_of_neg (by simp [(htext c rfl).1])

theorem NoBodyAhead.freeFraction_eq {text : List Char} (htext : NoBodyAhead text) :
    freeFraction text = (none, text) := by
  apply freeFraction.eq_2
  rintro rest rfl
  exact (htext '.' rfl).2 rfl

theorem freeFraction_length_le (text : List Char) :
    (freeFraction text).2.length ≤ text.length := by
  unfold freeFraction
  split
  next rest => exact Nat.le_succ_of_le (takeDigits_length_le rest)
  next => exact Nat.le_refl _

/-- The digits around a point at the head of a text, and what follows them. -/
def takeBody (text : List Char) : List Nat × Option (List Nat) × List Char :=
  ((takeDigits text).1, freeFraction (takeDigits text).2)

theorem takeBody_whole {digits : List Char} (hdigits : IsDigits digits) (rest : List Char) :
    takeBody (digits ++ rest) =
      ((digits ++ rest.takeWhile Char.isDigit).map digitValue,
        freeFraction (rest.dropWhile Char.isDigit)) := by
  rw [takeBody, takeDigits_append hdigits]

theorem takeBody_point {digits others : List Char} (hdigits : IsDigits digits)
    (hothers : IsDigits others) (rest : List Char) :
    takeBody (digits ++ '.' :: others ++ rest) =
      (digits.map digitValue, some ((others ++ rest.takeWhile Char.isDigit).map digitValue),
        rest.dropWhile Char.isDigit) := by
  rw [List.append_assoc, takeBody_whole hdigits]
  change ((digits ++ []).map digitValue, freeFraction ('.' :: (others ++ rest))) = _
  rw [freeFraction, takeDigits_append hothers, List.append_nil]

/-- What is read at a body that a text starts with is no less than the body, and
just the body if neither a digit nor a point follows. -/
theorem IsBody.takeBody_append {body whole : List Char} {fraction : Option (List Char)}
    (hbody : IsBody body whole fraction) (rest : List Char) :
    ¬ ((takeBody (body ++ rest)).1 = [] ∧ (takeBody (body ++ rest)).2.1.getD [] = []) ∧
      (takeBody (body ++ rest)).2.2.length ≤ rest.length ∧
      (NoBodyAhead rest → takeBody (body ++ rest) =
        (whole.map digitValue, fraction.map (List.map digitValue), rest)) := by
  have hdropped : (rest.dropWhile Char.isDigit).length ≤ rest.length :=
    (List.dropWhile_sublist _).length_le
  cases hbody with
  | whole hdigits hne =>
      rw [takeBody_whole hdigits]
      refine ⟨by simp [hne], Nat.le_trans (freeFraction_length_le _) hdropped, ?_⟩
      intro hrest
      rw [hrest.takeWhile_eq, hrest.dropWhile_eq, hrest.freeFraction_eq]
      simp
  | pointed hdigits hne hothers =>
      rw [takeBody_point hdigits hothers]
      refine ⟨by simp [hne], hdropped, ?_⟩
      intro hrest
      rw [hrest.takeWhile_eq, hrest.dropWhile_eq]
      simp
  | @fraction others hothers hne =>
      have hnone : IsDigits [] := fun _ hc => nomatch hc
      have hread := takeBody_point hnone hothers rest
      rw [List.nil_append] at hread
      rw [hread]
      refine ⟨by simp [hne], hdropped, ?_⟩
      intro hrest
      rw [hrest.takeWhile_eq, hrest.dropWhile_eq]
      simp

theorem exists_body {text : List Char}
    (htext : ¬ ((takeBody text).1 = [] ∧ (takeBody text).2.1.getD [] = [])) :
    ∃ body whole fraction, text = body ++ (takeBody text).2.2 ∧ IsBody body whole fraction ∧
      (takeBody text).1 = whole.map digitValue ∧
      (takeBody text).2.1 = fraction.map (List.map digitValue) := by
  obtain ⟨whole, rest, hsplit, hwhole, hread⟩ := exists_digits text
  unfold takeBody at htext ⊢
  rw [hread] at htext ⊢
  dsimp only at htext ⊢
  by_cases hpoint : ∃ tail, rest = '.' :: tail
  · obtain ⟨tail, rfl⟩ := hpoint
    obtain ⟨others, after, rfl, hothers, hafter⟩ := exists_digits tail
    rw [freeFraction, hafter] at htext ⊢
    refine ⟨whole ++ '.' :: others, whole, some others, by simp [hsplit], ?_, rfl, rfl⟩
    by_cases hne : whole = []
    · subst hne
      exact .fraction hothers fun hnone => htext (by simp [hnone])
    · exact .pointed hwhole hne hothers
  · rw [freeFraction.eq_2 rest fun tail htail => hpoint ⟨tail, htail⟩] at htext ⊢
    have hne : whole ≠ [] := fun hnone => htext (by simp [hnone])
    exact ⟨whole, whole, none, hsplit, .whole hwhole hne, rfl, rfl⟩

/-! ## Exponents -/

/-- A complete exponent, or none. -/
inductive IsExponent : List Char → Option Int → Prop where
  | none : IsExponent [] none
  | marked {mark : Char} {integer : List Char} {n : Int} (hmark : IsMark mark)
      (hinteger : SpellsInteger integer n) : IsExponent (mark :: integer) (some n)

/-- The exponent at the head of a text if it is complete, and what follows it. -/
def takeExponent : List Char → Option Int × List Char
  | [] => (none, [])
  | mark :: rest =>
      if mark = 'e' ∨ mark = 'E' then
        match exponentDigits? rest with
        | some (exponent, after) => (some exponent, after)
        | none => (none, mark :: rest)
      else (none, mark :: rest)

theorem takeExponent_mark {mark : Char} (hmark : IsMark mark) (rest : List Char) :
    takeExponent (mark :: rest) =
      match exponentDigits? rest with
      | some (exponent, after) => (some exponent, after)
      | none => (none, mark :: rest) :=
  if_pos hmark

theorem takeExponent_of_not_mark {text : List Char} (htext : ∀ c ∈ text.head?, ¬ IsMark c) :
    takeExponent text = (none, text) := by
  cases text with
  | nil => rfl
  | cons c rest => exact if_neg (htext c rfl)

theorem freeExponent_eq (text : List Char) : freeExponent text = (takeExponent text).1 := by
  unfold freeExponent
  split
  next rest =>
    rw [takeExponent_mark (.inl rfl)]
    cases exponentDigits? rest <;> rfl
  next rest =>
    rw [takeExponent_mark (.inr rfl)]
    cases exponentDigits? rest <;> rfl
  next hlower hupper =>
    rw [takeExponent_of_not_mark]
    rintro c hc (rfl | rfl)
    · obtain ⟨rest, rfl⟩ := List.head?_eq_some_iff.mp hc
      exact hlower rest rfl
    · obtain ⟨rest, rfl⟩ := List.head?_eq_some_iff.mp hc
      exact hupper rest rfl

theorem noSignAhead_digits {digits : List Char} (hdigits : IsDigits digits) (hne : digits ≠ [])
    (rest : List Char) : NoSignAhead (digits ++ rest) := by
  obtain ⟨c, others, rfl⟩ := List.exists_cons_of_ne_nil hne
  rintro d ⟨⟩
  have hc := hdigits c List.mem_cons_self
  constructor <;> rintro rfl <;> exact absurd hc (by decide)

/-- What is read at an integer that a text starts with is no less than the
integer, and just the integer if no digit follows. -/
theorem exponentDigits?_append {integer : List Char} {n : Int}
    (hinteger : SpellsInteger integer n) (rest : List Char) :
    ∃ m after, exponentDigits? (integer ++ rest) = some (m, after) ∧
      after.length ≤ rest.length ∧ (NoBodyAhead rest → m = n ∧ after = rest) := by
  cases hinteger with
  | @mk mark digits negative hmark hdigits hne =>
      have hsign := sign_append hmark (noSignAhead_digits hdigits hne rest)
      unfold exponentDigits?
      rw [List.append_assoc, hsign]
      dsimp only
      rw [takeDigits_append hdigits]
      split
      next hnone => simp [hne] at hnone
      next hsome =>
        cases hsome
        refine ⟨_, _, rfl, (List.dropWhile_sublist _).length_le, ?_⟩
        intro hrest
        rw [hrest.takeWhile_eq, hrest.dropWhile_eq, List.append_nil]
        exact ⟨rfl, rfl⟩

theorem exists_integer {text after : List Char} {n : Int}
    (hread : exponentDigits? text = some (n, after)) :
    ∃ integer, text = integer ++ after ∧ SpellsInteger integer n := by
  obtain ⟨mark, hsplit, hmark⟩ := exists_sign text
  obtain ⟨digits, rest, hrest, hdigits, htake⟩ := exists_digits (sign text).2
  unfold exponentDigits? at hread
  dsimp only at hread
  rw [htake] at hread
  split at hread
  next => cases hread
  next hsome hpair =>
    cases hpair
    cases hread
    have hne : digits ≠ [] := fun hnone => hsome (by rw [hnone]; rfl)
    exact ⟨mark ++ digits, by rw [List.append_assoc, ← hrest, ← hsplit], .mk hmark hdigits hne⟩

theorem exists_exponent (text : List Char) :
    ∃ tail, text = tail ++ (takeExponent text).2 ∧ IsExponent tail (takeExponent text).1 := by
  cases text with
  | nil => exact ⟨[], rfl, .none⟩
  | cons mark rest =>
      by_cases hmark : IsMark mark
      · rw [takeExponent_mark hmark]
        split
        next exponent after hread =>
          obtain ⟨integer, rfl, hinteger⟩ := exists_integer hread
          exact ⟨mark :: integer, rfl, .marked hmark hinteger⟩
        next => exact ⟨[], rfl, .none⟩
      · rw [takeExponent_of_not_mark (by rintro c ⟨⟩; exact hmark)]
        exact ⟨[], rfl, .none⟩

/-- The text is at its end, or goes on with nothing that numerals are made of. -/
def Apart (text : List Char) : Prop :=
  ∀ c ∈ text.head?, c.isDigit = false ∧ c ≠ '.' ∧ ¬ IsMark c

theorem Apart.noBodyAhead {text : List Char} (htext : Apart text) : NoBodyAhead text :=
  fun c hc => ⟨(htext c hc).1, (htext c hc).2.1⟩

theorem Apart.takeExponent_eq {text : List Char} (htext : Apart text) :
    takeExponent text = (none, text) :=
  takeExponent_of_not_mark fun c hc => (htext c hc).2.2

theorem takeExponent_length_le (text : List Char) :
    (takeExponent text).2.length ≤ text.length := by
  obtain ⟨tail, hsplit, -⟩ := exists_exponent text
  have hlength := congrArg List.length hsplit
  rw [List.length_append] at hlength
  omega

/-- What is read at an exponent that a text starts with is no less than the
exponent, and just the exponent if nothing follows that numerals are made of. -/
theorem IsExponent.takeExponent_append {tail : List Char} {exponent : Option Int}
    (htail : IsExponent tail exponent) (rest : List Char) :
    (takeExponent (tail ++ rest)).2.length ≤ rest.length ∧
      (Apart rest → takeExponent (tail ++ rest) = (exponent, rest)) := by
  cases htail with
  | none => exact ⟨takeExponent_length_le rest, Apart.takeExponent_eq⟩
  | marked hmark hinteger =>
      obtain ⟨m, after, hread, hle, hexact⟩ := exponentDigits?_append hinteger rest
      rw [List.cons_append, takeExponent_mark hmark, hread]
      refine ⟨hle, ?_⟩
      intro hrest
      obtain ⟨rfl, rfl⟩ := hexact hrest.noBodyAhead
      rfl

theorem IsExponent.noBodyAhead {tail rest : List Char} {exponent : Option Int}
    (htail : IsExponent tail exponent) (hrest : NoBodyAhead rest) : NoBodyAhead (tail ++ rest) := by
  cases htail with
  | none => exact hrest
  | marked hmark _ => exact hmark.noBodyAhead _

/-! ## Numerals -/

/-- The texts of numerals. -/
inductive Spells : List Char → Numeral → Prop where
  | mk {signText body tail whole : List Char} {negative : Bool} {fraction : Option (List Char)}
      {exponent : Option Int} (hsign : IsSign signText negative)
      (hbody : IsBody body whole fraction) (htail : IsExponent tail exponent) :
      Spells (signText ++ (body ++ tail))
        ⟨negative, whole.map digitValue, fraction.map (List.map digitValue), exponent⟩

/-- The longest numeral at the head of a text, and what follows it. -/
def take? (text : List Char) : Option (Numeral × List Char) :=
  let (negative, rest) := sign text
  let (whole, fraction, rest) := takeBody rest
  if whole = [] ∧ fraction.getD [] = [] then none
  else
    let (exponent, rest) := takeExponent rest
    some (⟨negative, whole, fraction, exponent⟩, rest)

theorem free?_eq (text : List Char) : free? text = (take? text).map Prod.fst := by
  unfold free? take? takeBody
  dsimp only
  split
  next => rfl
  next => rw [Option.map_some, freeExponent_eq]

theorem noSignAhead_body {body whole : List Char} {fraction : Option (List Char)}
    (hbody : IsBody body whole fraction) (rest : List Char) : NoSignAhead (body ++ rest) := by
  cases hbody with
  | whole hdigits hne => exact noSignAhead_digits hdigits hne rest
  | pointed hdigits hne hothers =>
      rw [List.append_assoc]
      exact noSignAhead_digits hdigits hne _
  | fraction hothers hne =>
      rintro c ⟨⟩
      decide

/-- What is taken at a numeral that a text starts with is no less than the
numeral, and just the numeral if nothing follows that numerals are made of. -/
theorem Spells.take?_append {text : List Char} {n : Numeral} (htext : Spells text n)
    (rest : List Char) :
    ∃ m after, take? (text ++ rest) = some (m, after) ∧ after.length ≤ rest.length ∧
      (Apart rest → m = n ∧ after = rest) := by
  cases htext with
  | @mk signText body tail _ _ _ _ hsign hbody htail =>
      obtain ⟨hdigits, hle, hexact⟩ := hbody.takeBody_append (tail ++ rest)
      obtain ⟨htailLe, htailExact⟩ := htail.takeExponent_append rest
      rw [List.append_assoc, List.append_assoc]
      unfold take?
      rw [sign_append hsign (noSignAhead_body hbody _)]
      dsimp only
      rw [if_neg hdigits]
      refine ⟨_, _, rfl, ?_, ?_⟩
      · cases htail with
        | none => exact Nat.le_trans (takeExponent_length_le _) hle
        | marked hmark _ =>
            rw [hexact (hmark.noBodyAhead _)]
            exact htailLe
      · intro hrest
        rw [hexact (htail.noBodyAhead hrest.noBodyAhead), htailExact hrest]
        exact ⟨rfl, rfl⟩

theorem exists_spells {text after : List Char} {n : Numeral} (htake : take? text = some (n, after)) :
    ∃ literal, text = literal ++ after ∧ Spells literal n := by
  obtain ⟨signText, hsplit, hsign⟩ := exists_sign text
  unfold take? at htake
  dsimp only at htake
  split at htake
  next => cases htake
  next hbody =>
    obtain ⟨body, whole, fraction, hrest, hbody, hwhole, hfraction⟩ := exists_body hbody
    obtain ⟨tail, hafter, htail⟩ := exists_exponent (takeBody (sign text).2).2.2
    cases htake
    refine ⟨signText ++ (body ++ tail), ?_, ?_⟩
    · rw [List.append_assoc, List.append_assoc, ← hafter, ← hrest, ← hsplit]
    · rw [hwhole, hfraction]
      exact .mk hsign hbody htail

/-- A numeral that a text is, is what is read of it. -/
theorem Spells.free?_append {text : List Char} {n : Numeral} (htext : Spells text n)
    {rest : List Char} (hrest : Apart rest) : free? (text ++ rest) = some n := by
  obtain ⟨m, after, htake, -, hexact⟩ := htext.take?_append rest
  rw [free?_eq, htake, (hexact hrest).1]
  rfl

theorem isBlank_eq_false {c : Char} (hlow : 0x21 ≤ c.toNat) (hhigh : c.toNat < 0x7F) :
    isBlank c = false := by
  simp [isBlank]
  omega

theorem isBlank_of_isDigit {c : Char} (hc : c.isDigit = true) : isBlank c = false := by
  obtain ⟨hlow, hhigh⟩ := Char.isDigit_iff_toNat.mp hc
  exact isBlank_eq_false (Nat.le_trans (by decide) hlow) (Nat.lt_of_le_of_lt hhigh (by decide))

theorem trimStart_cons {c : Char} (hc : isBlank c = false) (rest : List Char) :
    trimStart (c :: rest) = c :: rest :=
  List.dropWhile_cons_of_neg (by simp [hc])

theorem trimStart_digits {digits : List Char} (hdigits : IsDigits digits) (hne : digits ≠ [])
    (rest : List Char) : trimStart (digits ++ rest) = digits ++ rest := by
  obtain ⟨c, others, rfl⟩ := List.exists_cons_of_ne_nil hne
  exact trimStart_cons (isBlank_of_isDigit (hdigits c List.mem_cons_self)) _

/-- No numeral starts with a blank. -/
theorem Spells.trimStart_append {text : List Char} {n : Numeral} (htext : Spells text n)
    (rest : List Char) : trimStart (text ++ rest) = text ++ rest := by
  obtain ⟨hsign, hbody, -⟩ := htext
  cases hsign with
  | plus => exact trimStart_cons (by decide) _
  | minus => exact trimStart_cons (by decide) _
  | none =>
      rw [List.nil_append, List.append_assoc]
      cases hbody with
      | whole hdigits hne => exact trimStart_digits hdigits hne _
      | pointed hdigits hne hothers =>
          rw [List.append_assoc]
          exact trimStart_digits hdigits hne _
      | fraction hothers hne => exact trimStart_cons (by decide) _

/-- No numeral goes on with a blank. -/
theorem apart_of_isBlank {c : Char} (hc : isBlank c = true) (rest : List Char) :
    Apart (c :: rest) := by
  have hne {d : Char} (hd : isBlank d = false) : c ≠ d := by
    rintro rfl
    rw [hc] at hd
    cases hd
  rintro d ⟨⟩
  refine ⟨?_, hne (by decide), ?_⟩
  · exact Bool.eq_false_iff.mpr fun hdigit => hne (isBlank_of_isDigit hdigit) rfl
  · rintro (rfl | rfl)
    · exact hne (by decide) rfl
    · exact hne (by decide) rfl

theorem apart_nil : Apart [] :=
  fun _ hc => nomatch hc

theorem Spells.free?_eq {text : List Char} {n : Numeral} (htext : Spells text n) :
    free? text = some n := by
  have hread := htext.free?_append apart_nil
  rwa [List.append_nil] at hread

/-! ## Literals -/

/-- The word for infinity, its short form, or the word for no number, in letters
of any case, perhaps with a sign. -/
def IsWord (text : List Char) : Prop :=
  ∃ signText negative word, text = signText ++ word ∧ IsSign signText negative ∧
    word.map Char.toLower ∈ ["inf".toList, "infinity".toList, "nan".toList]

/-- What a number may be written as. -/
def IsLiteral (text : List Char) : Prop :=
  (∃ n, Spells text n) ∨ IsWord text

/-- The longest of the literals that a text starts with. -/
structure IsLongestLiteral (text literal : List Char) : Prop where
  isPrefix : literal <+: text
  isLiteral : IsLiteral literal
  longest : ∀ other, other <+: text → IsLiteral other → other.length ≤ literal.length

theorem IsLongestLiteral.unique {text literal other : List Char}
    (hliteral : IsLongestLiteral text literal) (hother : IsLongestLiteral text other) :
    literal = other := by
  have hle := hother.longest literal hliteral.isPrefix hliteral.isLiteral
  have hge := hliteral.longest other hother.isPrefix hother.isLiteral
  exact (List.prefix_of_prefix_length_le hliteral.isPrefix hother.isPrefix hle).eq_of_length
    (Nat.le_antisymm hle hge)

/-- The first letter of a word is no part of a numeral. -/
theorem not_numeral_of_toLower {c : Char} (hc : c.toLower = 'i' ∨ c.toLower = 'n') :
    (c.isDigit = false ∧ c ≠ '.') ∧ c ≠ '+' ∧ c ≠ '-' := by
  have hmark {mark : Char} (hmark : mark.toLower ≠ 'i' ∧ mark.toLower ≠ 'n') : c ≠ mark := by
    rintro rfl
    exact hc.elim hmark.1 hmark.2
  refine ⟨⟨?_, hmark (by decide)⟩, hmark (by decide), hmark (by decide)⟩
  apply Bool.eq_false_iff.mpr
  intro hdigit
  have hsame : c.toLower = c := by
    apply dif_neg
    rintro ⟨hupper, -⟩
    have hlow : 'A'.toNat ≤ c.toNat := hupper
    have hhigh := (Char.isDigit_iff_toNat.mp hdigit).2
    exact absurd (Nat.le_trans hlow hhigh) (by decide)
  rw [hsame] at hc
  rcases hc with rfl | rfl <;> exact absurd hdigit (by decide)

/-- A text that starts with a word does not start with a numeral. -/
theorem take?_eq_none_of_isWord {text : List Char} (htext : IsWord text) (rest : List Char) :
    take? (text ++ rest) = none := by
  obtain ⟨signText, negative, word, rfl, hsign, hword⟩ := htext
  obtain ⟨c, letters, rfl, hc⟩ : ∃ c letters, word = c :: letters ∧
      (c.toLower = 'i' ∨ c.toLower = 'n') := by
    cases word with
    | nil => simp at hword
    | cons c letters =>
        simp only [List.map_cons, List.mem_cons, List.not_mem_nil, or_false] at hword
        rcases hword with hword | hword | hword
        · exact ⟨c, letters, rfl, .inl (List.cons.inj hword).1⟩
        · exact ⟨c, letters, rfl, .inl (List.cons.inj hword).1⟩
        · exact ⟨c, letters, rfl, .inr (List.cons.inj hword).1⟩
  obtain ⟨hbody, hnosign⟩ := not_numeral_of_toLower hc
  have hahead : NoBodyAhead (c :: (letters ++ rest)) := by
    rintro d ⟨⟩
    exact hbody
  have hread : takeBody (c :: (letters ++ rest)) = ([], none, c :: (letters ++ rest)) := by
    rw [takeBody, takeDigits_eq, hahead.takeWhile_eq, hahead.dropWhile_eq, hahead.freeFraction_eq]
    rfl
  unfold take?
  rw [List.append_assoc, List.cons_append, sign_append hsign (by rintro d ⟨⟩; exact hnosign)]
  dsimp only
  rw [hread]
  rfl

theorem free?_eq_none_iff {text : List Char} :
    free? text = none ↔ ∀ literal n, literal <+: text → ¬ Spells literal n := by
  rw [free?_eq, Option.map_eq_none_iff]
  constructor
  · rintro hnone literal n ⟨rest, rfl⟩ hspells
    obtain ⟨m, after, htake, -⟩ := hspells.take?_append rest
    rw [hnone] at htake
    cases htake
  · intro hnone
    rw [Option.eq_none_iff_forall_ne_some]
    rintro ⟨n, after⟩ htake
    obtain ⟨literal, rfl, hspells⟩ := exists_spells htake
    exact hnone literal n (List.prefix_append _ _) hspells

/-- What is read of a text is what its longest literal spells, unless that is a
word. -/
theorem free?_eq_some_iff {text : List Char} {n : Numeral} :
    free? text = some n ↔ ∃ literal, IsLongestLiteral text literal ∧ Spells literal n := by
  have hread {n : Numeral} (hfree : free? text = some n) :
      ∃ literal, IsLongestLiteral text literal ∧ Spells literal n := by
    rw [Numeral.free?_eq, Option.map_eq_some_iff] at hfree
    obtain ⟨⟨m, after⟩, htake, rfl⟩ := hfree
    obtain ⟨literal, rfl, hspells⟩ := exists_spells htake
    refine ⟨literal, ⟨List.prefix_append _ _, .inl ⟨m, hspells⟩, ?_⟩, hspells⟩
    rintro other ⟨rest, hrest⟩ (⟨m', hother⟩ | hother)
    · obtain ⟨m'', after', htake', hle, -⟩ := hother.take?_append rest
      rw [hrest, htake] at htake'
      cases htake'
      have hlength := congrArg List.length hrest
      rw [List.length_append, List.length_append] at hlength
      omega
    · have hnone := take?_eq_none_of_isWord hother rest
      rw [hrest, htake] at hnone
      cases hnone
  refine ⟨hread, ?_⟩
  rintro ⟨literal, hlongest, hspells⟩
  cases hfree : free? text with
  | none => exact absurd hspells (free?_eq_none_iff.mp hfree literal n hlongest.isPrefix)
  | some m =>
      obtain ⟨other, hother, hotherSpells⟩ := hread hfree
      rw [hlongest.unique hother] at hspells
      rw [← hspells.free?_eq, hotherSpells.free?_eq]

end Numeral

end TenderSearch.Text
