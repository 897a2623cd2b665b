import TenderSearch.Text.CaseTable

/-!
# Lower-casing

Every character is replaced by its lower-case form. Capital sigma becomes the
final sigma at the end of a word: after a letter with case and before no such
letter, where marks that belong to words are passed over.
-/

namespace TenderSearch.Text

def inRanges (ranges : List (Nat × Nat)) (c : Char) : Bool :=
  ranges.any fun (first, last) => first ≤ c.toNat && c.toNat ≤ last

/-- The lower-case form of a character of a run. -/
def lowerIn? (c : Char) : Nat × Nat × Nat × Int → Option Char
  | (first, last, step, shift) =>
      if first ≤ c.toNat ∧ c.toNat ≤ last ∧ (c.toNat - first) % step = 0 then
        some (Char.ofNat ((c.toNat : Int) + shift).toNat)
      else none

/-- The lower-case form of a character outside ASCII. -/
def lowerWide (c : Char) : List Char :=
  if c = '\u0130' then ['i', '\u0307']
  else [(lowerRuns.findSome? (lowerIn? c)).getD c]

def lowerChar (c : Char) : List Char :=
  if c.toNat < 0x80 then [c.toLower] else lowerWide c

/-- Whether the first character that is not passed over has case. -/
def reachesCased (text : List Char) : Bool :=
  match text.dropWhile (inRanges ignorableRanges) with
  | c :: _ => inRanges casedRanges c
  | [] => false

/-- Lower-cases a text after the characters before it, the nearest first. -/
def lowerFrom (before : List Char) : List Char → List Char
  | [] => []
  | c :: rest =>
      let lowered :=
        if c = 'Σ' then
          if reachesCased before && !reachesCased rest then ['ς'] else ['σ']
        else lowerChar c
      lowered ++ lowerFrom (c :: before) rest

def lowerCase (text : String) : String :=
  String.ofList (lowerFrom [] text.toList)

end TenderSearch.Text
