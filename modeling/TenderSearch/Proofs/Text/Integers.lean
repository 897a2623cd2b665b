import Mathlib.Algebra.Group.Int.Defs
import Mathlib.Data.List.Basic
import TenderSearch.Proofs.Text.Literals

/-!
# Integers between blanks

An integer is written as a sign and at least one digit. Removing the blanks
from both ends of a text leaves what starts and ends with something else.
-/

namespace TenderSearch.Text

/-! ## Blanks -/

def IsBlanks (text : List Char) : Prop :=
  ∀ c ∈ text, isBlank c = true

instance (text : List Char) : Decidable (IsBlanks text) :=
  List.decidableBAll (fun c : Char => isBlank c = true) text

theorem exists_trim (text : List Char) :
    ∃ before after, text = before ++ (trim text ++ after) ∧ IsBlanks before ∧ IsBlanks after := by
  have htail := List.takeWhile_append_dropWhile (p := isBlank) (l := (trimStart text).reverse)
  refine ⟨text.takeWhile isBlank, ((trimStart text).reverse.takeWhile isBlank).reverse, ?_,
    fun _ hc => List.all_eq_true.mp List.all_takeWhile _ hc,
    fun _ hc => List.all_eq_true.mp List.all_takeWhile _ (List.mem_reverse.mp hc)⟩
  have hsplit : trimStart text =
      trim text ++ ((trimStart text).reverse.takeWhile isBlank).reverse := by
    rw [trim, trimEnd, ← List.reverse_append, htail, List.reverse_reverse]
  rw [← hsplit]
  exact List.takeWhile_append_dropWhile.symm

/-- Blanks are removed up to the first and the last other character. -/
theorem trim_append {before core after : List Char} (hbefore : IsBlanks before)
    (hafter : IsBlanks after) (hhead : ∃ c ∈ core.head?, isBlank c = false)
    (hlast : ∃ c ∈ core.getLast?, isBlank c = false) :
    trim (before ++ (core ++ after)) = core := by
  obtain ⟨first, hfirst, hfirstBlank⟩ := hhead
  obtain ⟨rest, rfl⟩ := List.head?_eq_some_iff.mp hfirst
  obtain ⟨last, hlast, hlastBlank⟩ := hlast
  obtain ⟨front, hfront⟩ := List.getLast?_eq_some_iff.mp hlast
  have hstart : trimStart (before ++ (first :: rest ++ after)) = first :: rest ++ after := by
    rw [trimStart, List.dropWhile_append_of_pos hbefore, List.cons_append,
      List.dropWhile_cons_of_neg (by simp [hfirstBlank])]
  have hend : IsBlanks after.reverse := fun c hc => hafter c (List.mem_reverse.mp hc)
  rw [trim, hstart, trimEnd, List.reverse_append, List.dropWhile_append_of_pos hend, hfront,
    List.reverse_append, List.reverse_singleton, List.singleton_append,
    List.dropWhile_cons_of_neg (by simp [hlastBlank]), List.reverse_cons, List.reverse_reverse]

/-! ## Integers -/

theorem int?_eq (text : List Char) :
    int? text = (nat? (Numeral.sign text).2).map fun n : Nat =>
      if (Numeral.sign text).1 then -(n : Int) else n := by
  unfold int?
  split
  next rest =>
    change _ = (nat? rest).map _
    cases nat? rest <;> rfl
  next rest =>
    change _ = (nat? rest).map _
    cases nat? rest <;> rfl
  next hminus hplus =>
    rw [Numeral.sign.eq_3 text hminus hplus]
    cases nat? text <;> rfl

/-- An integer is a text that is read up to its end. -/
theorem int?_eq_some_iff_exponentDigits? {text : List Char} {n : Int} :
    int? text = some n ↔ Numeral.exponentDigits? text = some (n, []) := by
  rw [int?_eq]
  unfold nat? Numeral.exponentDigits?
  dsimp only
  rcases takeDigits (Numeral.sign text).2 with ⟨_ | ⟨d, others⟩, _ | ⟨c, rest⟩⟩ <;> simp

theorem int?_eq_some_iff {text : List Char} {n : Int} :
    int? text = some n ↔ SpellsInteger text n := by
  rw [int?_eq_some_iff_exponentDigits?]
  constructor
  · intro hread
    obtain ⟨integer, rfl, hinteger⟩ := Numeral.exists_integer hread
    rwa [List.append_nil]
  · intro hinteger
    obtain ⟨m, after, hread, -, hexact⟩ := Numeral.exponentDigits?_append hinteger []
    obtain ⟨rfl, rfl⟩ := hexact fun _ hc => nomatch hc
    rwa [List.append_nil] at hread

/-! ## Integers between blanks -/

/-- The text is the numeral with blanks on both sides, or with none. -/
def IsPadded (numeral text : List Char) : Prop :=
  ∃ before after, text = before ++ (numeral ++ after) ∧ IsBlanks before ∧ IsBlanks after

theorem exists_head?_notBlank {mark digits : List Char} {negative : Bool}
    (hmark : IsSign mark negative) (hdigits : IsDigits digits) (hne : digits ≠ []) :
    ∃ c ∈ (mark ++ digits).head?, isBlank c = false := by
  cases hmark with
  | plus => exact ⟨'+', rfl, by decide⟩
  | minus => exact ⟨'-', rfl, by decide⟩
  | none =>
      obtain ⟨c, rest, rfl⟩ := List.exists_cons_of_ne_nil hne
      exact ⟨c, rfl, Numeral.isBlank_of_isDigit (hdigits c List.mem_cons_self)⟩

theorem SpellsInteger.trim_eq {numeral text : List Char} {n : Int}
    (hnumeral : SpellsInteger numeral n) (htext : IsPadded numeral text) : trim text = numeral := by
  obtain ⟨before, after, rfl, hbefore, hafter⟩ := htext
  obtain ⟨hmark, hdigits, hne⟩ := hnumeral
  apply trim_append hbefore hafter (exists_head?_notBlank hmark hdigits hne)
  have hlast := List.getLast_mem hne
  refine ⟨_, ?_, Numeral.isBlank_of_isDigit (hdigits _ hlast)⟩
  rw [List.getLast?_append_of_ne_nil _ hne]
  exact List.getLast?_eq_some_getLast hne

theorem int32?_trim_eq_some_iff {text : List Char} {n : Int} :
    int32? (trim text) = some n ↔
      (∃ numeral, SpellsInteger numeral n ∧ IsPadded numeral text) ∧ -2 ^ 31 ≤ n ∧ n < 2 ^ 31 := by
  have hspells : SpellsInteger (trim text) n ↔
      ∃ numeral, SpellsInteger numeral n ∧ IsPadded numeral text := by
    constructor
    · intro hnumeral
      exact ⟨trim text, hnumeral, exists_trim text⟩
    · rintro ⟨numeral, hnumeral, htext⟩
      rwa [hnumeral.trim_eq htext]
  simp only [int32?, Option.filter_eq_some_iff, int?_eq_some_iff, hspells, decide_eq_true_eq]
  rfl

end TenderSearch.Text
