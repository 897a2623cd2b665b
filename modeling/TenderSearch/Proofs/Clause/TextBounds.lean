import TenderSearch.Proofs.Binary64.Decimals
import TenderSearch.Proofs.Clause.Bounds
import TenderSearch.Proofs.Text.Literals

/-!
# Texts as bounds of comparisons

A text stands for the longest literal that it starts with behind blanks, and
for no number if that literal does not round to one, even where a shorter one
does. What follows a numeral behind a blank makes no difference.
-/

namespace TenderSearch

open Binary64 (RoundsTo)
open Report (Yields)
open Text (trimStart isBlank)
open Text.Numeral (IsLongestLiteral Spells)

/-- A literal stands for the number that its value rounds to. Words and literals
out of range stand for none. -/
def Text.Numeral.Denotes (literal : List Char) (x : Binary64) : Prop :=
  ∃ n, Spells literal n ∧ RoundsTo n.value x

namespace Clause

open Text.Numeral (Denotes)

theorem number?_str (text : String) :
    number? (.str text) = (Text.Numeral.free? (trimStart text.toList)).bind Text.Numeral.nearest? :=
  rfl

/-- The number of a text is the one that its longest literal stands for. -/
theorem exists_denotes_of_number? {text : String} {x : Binary64}
    (hnumber : number? (.str text) = some x) :
    ∃ literal, IsLongestLiteral (trimStart text.toList) literal ∧ Denotes literal x := by
  rw [number?_str, Option.bind_eq_some_iff] at hnumber
  obtain ⟨n, hfree, hnearest⟩ := hnumber
  obtain ⟨literal, hlongest, hspells⟩ := Text.Numeral.free?_eq_some_iff.mp hfree
  have hrounded := n.isRounded_nearest?
  rw [hnearest] at hrounded
  exact ⟨literal, hlongest, n, hspells, hrounded⟩

theorem nearest?_of_denotes {n : Text.Numeral} {x : Binary64} (hx : RoundsTo n.value x) :
    ∃ y, n.nearest? = some y ∧ y.toRat = x.toRat := by
  have hrounded := n.isRounded_nearest?
  cases hnearest : n.nearest? with
  | none =>
      rw [hnearest] at hrounded
      exact absurd hx (hrounded x)
  | some y =>
      rw [hnearest] at hrounded
      exact ⟨y, rfl, hrounded.toRat_unique hx⟩

theorem exists_number?_of_denotes {text : String} {literal : List Char} {x : Binary64}
    (hlongest : IsLongestLiteral (trimStart text.toList) literal) (hliteral : Denotes literal x) :
    ∃ y, number? (.str text) = some y ∧ y.toRat = x.toRat := by
  obtain ⟨n, hspells, hx⟩ := hliteral
  obtain ⟨y, hnearest, hvalue⟩ := nearest?_of_denotes hx
  have hfree := Text.Numeral.free?_eq_some_iff.mpr ⟨literal, hlongest, hspells⟩
  exact ⟨y, by rw [number?_str, hfree, Option.bind_some, hnearest], hvalue⟩

/-- A numeral with something behind it that starts with a blank. -/
theorem number?_append {literal rest : String} {n : Text.Numeral}
    (hspells : Spells literal.toList n) (hrest : ∃ c ∈ rest.toList.head?, isBlank c = true) :
    number? (.str (literal ++ rest)) = n.nearest? := by
  obtain ⟨c, hc, hblank⟩ := hrest
  obtain ⟨others, hothers⟩ := List.head?_eq_some_iff.mp hc
  have hapart : Text.Numeral.Apart rest.toList := by
    rw [hothers]
    exact Text.Numeral.apart_of_isBlank hblank others
  rw [number?_str, String.toList_append, hspells.trimStart_append, hspells.free?_append hapart,
    Option.bind_some]

theorem number?_literal {literal : String} {n : Text.Numeral}
    (hspells : Spells literal.toList n) : number? (.str literal) = n.nearest? := by
  have htrim := hspells.trimStart_append []
  rw [List.append_nil] at htrim
  rw [number?_str, htrim, hspells.free?_eq, Option.bind_some]

/-- A text as the first value of a comparison stands for the longest literal
that it starts with behind blanks. If the literal denotes a number, the clause
compares with it, and otherwise it raises just that the text is no number. So
what follows a numeral behind a blank changes nothing. -/
theorem text_bound_is_longest_literal {clause : Clause} {comparison : Comparison}
    (hkind : clause.kind = .value) (hcomparison : clause.comparison = some comparison)
    (hknown : comparison.isKnown = true) :
    (∀ text others literal x, IsLongestLiteral (trimStart text.toList) literal →
      Denotes literal x →
      ∃ number fragment, number.toRat = x.toRat ∧
        Compares clause.field number comparison fragment ∧
        Yields { clause with values := .str text :: others }.compileAlone (some fragment) []) ∧
    (∀ text others,
      (¬ ∃ literal x, IsLongestLiteral (trimStart text.toList) literal ∧ Denotes literal x) →
      Yields { clause with values := .str text :: others }.compileAlone none
        [.invalidNumber clause.field text]) ∧
    (∀ literal x rest others, Denotes literal.toList x →
      (∃ c ∈ rest.toList.head?, isBlank c = true) →
      ∃ fragment,
        Yields { clause with values := .str literal :: others }.compileAlone (some fragment) [] ∧
        Yields { clause with values := .str (literal ++ rest) :: others }.compileAlone
          (some fragment) []) := by
  refine ⟨?_, ?_, ?_⟩
  · intro text others literal x hlongest hliteral
    obtain ⟨y, hnumber, hvalue⟩ := exists_number?_of_denotes hlongest hliteral
    rw [← hvalue]
    exact @yields_bound { clause with values := .str text :: others } hkind comparison hcomparison
      hknown y hnumber
  · intro text others hnone
    have hnumber : number? (.str text) = none := by
      by_contra hsome
      obtain ⟨x, hx⟩ := Option.ne_none_iff_exists'.mp hsome
      obtain ⟨literal, hlongest, hliteral⟩ := exists_denotes_of_number? hx
      exact hnone ⟨literal, x, hlongest, hliteral⟩
    exact @yields_no_bound { clause with values := .str text :: others } hkind hnumber
  · intro literal x rest others ⟨n, hspells, hx⟩ hrest
    obtain ⟨y, hnearest, -⟩ := nearest?_of_denotes hx
    have halone : number? (.str literal) = some y := (number?_literal hspells).trans hnearest
    have hfollowed : number? (.str (literal ++ rest)) = some y :=
      (number?_append hspells hrest).trans hnearest
    obtain ⟨number, fragment, -, -, hyields⟩ :=
      @yields_bound { clause with values := .str literal :: others } hkind comparison hcomparison
        hknown y halone
    refine ⟨fragment, hyields, ?_⟩
    rw [@compileAlone_bound { clause with values := .str (literal ++ rest) :: others } hkind
      comparison hcomparison hknown y hfollowed]
    rwa [@compileAlone_bound { clause with values := .str literal :: others } hkind comparison
      hcomparison hknown y halone] at hyields

/-- Blanks in front of a numeral and a word behind it are left out. -/
theorem text_bound_is_longest_literal_blank :
    ∃ number fragment, number.toRat = 12 ∧ Compares "price" number .less fragment ∧
      Yields (Clause.compare "price" .less (.str " 12 lots")).compileAlone (some fragment) [] := by
  have hread : (number? (.str " 12 lots")).bind Binary64.toInt? = some 12 := by decide +kernel
  obtain ⟨x, hnumber, hwhole⟩ := Option.bind_eq_some_iff.mp hread
  obtain ⟨literal, hlongest, hliteral⟩ := exists_denotes_of_number? hnumber
  obtain ⟨hcompiles, -⟩ :=
    @text_bound_is_longest_literal (Clause.compare "price" .less .null) .less rfl rfl rfl
  have hvalue : x.toRat = 12 := by exact_mod_cast Binary64.toInt?_eq_some_iff.mp hwhole
  rw [← hvalue]
  exact hcompiles " 12 lots" [] literal x hlongest hliteral

end Clause

end TenderSearch
