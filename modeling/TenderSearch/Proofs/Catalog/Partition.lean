import TenderSearch.Proofs.Catalog.Reading
import TenderSearch.Proofs.Catalog.Selecting

/-!
# Readings split selections

Lenient reading puts every selected id either into the table of summaries or
into one condition. Which of the two it is, and what is read, is decided by the
value under that id alone: neither the other ids nor the rest of the answer
count.
-/

namespace TenderSearch.Catalog

open Json Report

/-! ## Selections -/

/-- The selections that selecting makes. -/
def IsSelected (selection : Selection) : Prop :=
  ∃ ids mode earlier later, runIn mode earlier (select ids) = (.ok selection, later)

/-- No entry is selected twice. -/
theorem IsSelected.nodup {selection : Selection} (hselection : IsSelected selection) :
    selection.Nodup := by
  obtain ⟨ids, mode, earlier, later, hrun⟩ := hselection
  have hyields := yields_selectAfter [] ids
  obtain ⟨rfl, -⟩ := hyields.run_eq_ok hyields hrun
  exact (Selection.isOf_foldl_with ids).nodup

/-! ## One entry of an answer -/

/-- What an entry reads depends only on the value under its id. -/
theorem Entry.read_congr (context : Context) {entry : Entry} {answer other : Json}
    (hvalue : answer.get? entry.id = other.get? entry.id) :
    entry.read context answer = entry.read context other := by
  have hroot : answerRoot? answer entry.id = answerRoot? other entry.id := by
    rw [answerRoot?, answerRoot?, hvalue]
  -- top lists are the only ones that look at the answer besides its root
  have hcount : readCount answer [entry.id] = readCount other [entry.id] := by
    rw [readCount, readCount, descend, descend, at?, at?, hvalue]
  have htop : ∀ path root, readTop entry.id path answer root = readTop entry.id path other root := by
    intro path root
    rw [readTop, readTop, hcount]
  have hread : ∀ root, entry.readRoot context answer root =
      entry.readRoot context other root := by
    intro root
    cases entry with
    | topAuthorities | topCompanies | topWinningCompanies => exact htop _ root
    | _ => rfl
  rw [Entry.read, Entry.read, hroot]
  simp only [hread]

/-- Whether a condition is about the part of an answer under an id. -/
def isMalformedAt (id : String) : Condition → Bool
  | .malformedAnswer named _ => named = id
  | _ => false

def malformedId? : Condition → Option String
  | .malformedAnswer id _ => some id
  | _ => none

/-- What a reading has come to for an id: its summary, and the conditions about it. -/
def outcomeAt (id : String) (table : List (String × Summary)) (issues : List Condition) :
    Option Summary × List Condition :=
  (Table.get? id table, issues.filter (isMalformedAt id))

/-- What reading an entry alone comes to. -/
def Entry.outcome (context : Context) (answer : Json) (entry : Entry) :
    Option Summary × List Condition :=
  match entry.read context answer with
  | .ok summary => (some summary, [])
  | .error path => (none, [.malformedAnswer entry.id path])

theorem Entry.outcome_congr (context : Context) {entry : Entry} {answer other : Json}
    (hvalue : answer.get? entry.id = other.get? entry.id) :
    entry.outcome context answer = entry.outcome context other := by
  rw [Entry.outcome, Entry.outcome, Entry.read_congr context hvalue]

/-! ## The entries of a selection -/

section Readings

variable {context : Context} {answer : Json} {selection : Selection}

theorem malformed?_eq_some_iff {entry : Entry} {condition : Condition} :
    Selection.malformed? context answer entry = some condition ↔
      ∃ path, entry.read context answer = .error path ∧
        condition = .malformedAnswer entry.id path := by
  rw [Selection.malformed?]
  split
  next summary hread => simp [hread]
  next path hread => simp [hread, eq_comm]

theorem malformed?_eq_none_of_ok {entry : Entry} {summary : Summary}
    (hread : entry.read context answer = .ok summary) :
    Selection.malformed? context answer entry = none := by
  rw [Selection.malformed?, hread]

theorem get?_summaries_of_error {entry : Entry} {path : String}
    (hread : entry.read context answer = .error path) :
    Table.get? entry.id (Table.extend []
      (selection.filterMap (Selection.summary? context answer))) = none := by
  by_contra hsome
  have hhas := Option.isSome_iff_ne_none.mpr hsome
  obtain ⟨other, -, hid, summary, hok⟩ := has_summaries_iff.mp hhas
  rw [Entry.id_inj hid, hread] at hok
  cases hok

theorem filter_malformed_of_not_mem {entry : Entry} (hentry : entry ∉ selection) :
    (selection.filterMap (Selection.malformed? context answer)).filter
      (isMalformedAt entry.id) = [] := by
  rw [List.filter_eq_nil_iff]
  intro condition hcondition hnamed
  obtain ⟨other, hother, hmalformed⟩ := List.mem_filterMap.mp hcondition
  obtain ⟨path, -, rfl⟩ := malformed?_eq_some_iff.mp hmalformed
  have hid : other.id = entry.id := by simpa [isMalformedAt] using hnamed
  exact hentry (Entry.id_inj hid ▸ hother)

/-- The conditions about a selected entry are its own one, if it has one. -/
theorem filter_malformed_of_mem (hnodup : selection.Nodup) {entry : Entry}
    (hentry : entry ∈ selection) :
    (selection.filterMap (Selection.malformed? context answer)).filter
      (isMalformedAt entry.id) = (Selection.malformed? context answer entry).toList := by
  induction selection with
  | nil => exact nomatch hentry
  | cons first rest ih =>
      obtain ⟨hfirst, hrest⟩ := List.nodup_cons.mp hnodup
      rcases List.mem_cons.mp hentry with rfl | hmem
      · -- the rest holds no other condition about the entry
        have hnone : (rest.filterMap (Selection.malformed? context answer)).filter
            (isMalformedAt entry.id) = [] := filter_malformed_of_not_mem hfirst
        cases hmalformed : Selection.malformed? context answer entry with
        | none => rw [List.filterMap_cons_none hmalformed, hnone, Option.toList_none]
        | some condition =>
            obtain ⟨path, -, rfl⟩ := malformed?_eq_some_iff.mp hmalformed
            rw [List.filterMap_cons_some hmalformed,
              List.filter_cons_of_pos (by simp [isMalformedAt]), hnone, Option.toList_some]
      · have hne : first.id ≠ entry.id := by
          intro hid
          rw [Entry.id_inj hid] at hfirst
          exact hfirst hmem
        rw [← ih hrest hmem]
        cases hmalformed : Selection.malformed? context answer first with
        | none => rw [List.filterMap_cons_none hmalformed]
        | some condition =>
            obtain ⟨path, -, rfl⟩ := malformed?_eq_some_iff.mp hmalformed
            rw [List.filterMap_cons_some hmalformed,
              List.filter_cons_of_neg (by simp [isMalformedAt, hne])]

/-- A selection comes to what each of its entries comes to alone. -/
theorem outcomeAt_eq_outcome (hnodup : selection.Nodup) {entry : Entry}
    (hentry : entry ∈ selection) :
    outcomeAt entry.id
      (Table.extend [] (selection.filterMap (Selection.summary? context answer)))
      (selection.filterMap (Selection.malformed? context answer)) =
        entry.outcome context answer := by
  rw [outcomeAt, Entry.outcome, filter_malformed_of_mem hnodup hentry]
  cases hread : entry.read context answer with
  | ok summary =>
      rw [get?_summaries hentry hread, malformed?_eq_none_of_ok hread]
      rfl
  | error path =>
      rw [get?_summaries_of_error hread, malformed?_eq_some_iff.mpr ⟨path, hread, rfl⟩]
      rfl

/-- The conditions name entries of the selection, in its order. -/
theorem sublist_filterMap_malformed :
    ((selection.filterMap (Selection.malformed? context answer)).filterMap malformedId?).Sublist
      selection.ids := by
  induction selection with
  | nil => exact .slnil
  | cons entry rest ih =>
      rw [Selection.ids, List.map_cons]
      cases hmalformed : Selection.malformed? context answer entry with
      | none =>
          rw [List.filterMap_cons_none hmalformed]
          exact ih.cons _
      | some condition =>
          obtain ⟨path, -, rfl⟩ := malformed?_eq_some_iff.mp hmalformed
          have hid : malformedId? (.malformedAnswer entry.id path) = some entry.id := rfl
          rw [List.filterMap_cons_some hmalformed, List.filterMap_cons_some hid]
          exact ih.cons_cons _

end Readings

/-! ## The selection as a whole -/

/-- A reading splits a selection into the ids with a summary and those with a
condition. -/
structure Splits (selection : Selection) (table : List (String × Summary))
    (issues : List Condition) : Prop where
  /-- A selected id has either a summary and no condition, or exactly one condition
  and no summary. -/
  either : ∀ id ∈ selection.ids,
    (∃ summary, outcomeAt id table issues = (some summary, [])) ∨
      ∃ path, outcomeAt id table issues = (none, [.malformedAnswer id path])
  selected : ∀ id, Table.has id table = true → id ∈ selection.ids
  /-- There are no other conditions. -/
  malformed : ∀ condition ∈ issues, ∃ id ∈ selection.ids, ∃ path,
    condition = .malformedAnswer id path
  ordered : (issues.filterMap malformedId?).Sublist selection.ids

theorem splits_of_nodup (context : Context) (answer : Json) {selection : Selection}
    (hnodup : selection.Nodup) :
    Splits selection
      (Table.extend [] (selection.filterMap (Selection.summary? context answer)))
      (selection.filterMap (Selection.malformed? context answer)) where
  either id hid := by
    obtain ⟨entry, hentry, rfl⟩ := List.mem_map.mp hid
    rw [outcomeAt_eq_outcome hnodup hentry, Entry.outcome]
    cases entry.read context answer with
    | ok summary => exact .inl ⟨summary, rfl⟩
    | error path => exact .inr ⟨path, rfl⟩
  selected id hhas := by
    obtain ⟨entry, hentry, rfl, -⟩ := has_summaries_iff.mp hhas
    exact List.mem_map_of_mem hentry
  malformed condition hcondition := by
    obtain ⟨entry, hentry, hmalformed⟩ := List.mem_filterMap.mp hcondition
    obtain ⟨path, -, rfl⟩ := malformed?_eq_some_iff.mp hmalformed
    exact ⟨entry.id, List.mem_map_of_mem hentry, path, rfl⟩
  ordered := sublist_filterMap_malformed

/-- Lenient reading of any answer splits the selection. An id that two selections
have in common comes to the same in two answers that agree on the value under it,
whatever else is selected and whatever else the answers hold. -/
theorem read_splits_and_is_local (context : Context) {selection other : Selection}
    (hselection : IsSelected selection) (hother : IsSelected other)
    (answer otherAnswer : Json) :
    ∃ table issues otherTable otherIssues,
      (∀ earlier, runIn .lenient earlier (selection.read context answer) =
        (.ok table, earlier ++ issues)) ∧
      (∀ earlier, runIn .lenient earlier (other.read context otherAnswer) =
        (.ok otherTable, earlier ++ otherIssues)) ∧
      Splits selection table issues ∧
      ∀ id ∈ selection.ids, id ∈ other.ids → answer.get? id = otherAnswer.get? id →
        outcomeAt id table issues = outcomeAt id otherTable otherIssues := by
  have hread := Selection.yields_readAfter context answer [] selection
  have hreadOther := Selection.yields_readAfter context otherAnswer [] other
  refine ⟨_, _, _, _, hread.lenient, hreadOther.lenient,
    splits_of_nodup context answer hselection.nodup, ?_⟩
  intro id hid hidOther hvalue
  obtain ⟨entry, hentry, rfl⟩ := List.mem_map.mp hid
  obtain ⟨same, hsame, heq⟩ := List.mem_map.mp hidOther
  rw [Entry.id_inj heq] at hsame
  rw [outcomeAt_eq_outcome hselection.nodup hentry, outcomeAt_eq_outcome hother.nodup hsame]
  exact Entry.outcome_congr context hvalue

/-- Two countries with tenders, as the value of an answer under the id of the countries. -/
def twoCountries : Json :=
  .obj [("buckets", .arr [
    .obj [("doc_count", Json.ofNat 2), ("key", .str "SK")],
    .obj [("doc_count", Json.ofNat 1), ("key", .str "CZ")]])]

/-- An answer with a text in the place of the years. -/
def spoiledAnswer : Json :=
  .obj [("histogram_lots_awardDecisionDate", .str "2015"), ("terms_countries", twoCountries)]

/-- Another answer holds the same countries and nothing else. -/
theorem read_splits_and_is_local_countries :
    IsSelected [.countries, .awardYears] ∧ IsSelected [.lotBidTotals, .countries] ∧
    ∃ table issues otherTable otherIssues,
      (∀ earlier, runIn .lenient earlier (Selection.read ⟨fun _ _ => none, "en", 0, 2000, 2030⟩
        spoiledAnswer [.countries, .awardYears]) = (.ok table, earlier ++ issues)) ∧
      (∀ earlier, runIn .lenient earlier (Selection.read ⟨fun _ _ => none, "en", 0, 2000, 2030⟩
        (.obj [("terms_countries", twoCountries)]) [.lotBidTotals, .countries]) =
          (.ok otherTable, earlier ++ otherIssues)) ∧
      Splits [.countries, .awardYears] table issues ∧
      outcomeAt "terms_countries" table issues =
        outcomeAt "terms_countries" otherTable otherIssues := by
  have hselection : IsSelected [.countries, .awardYears] :=
    ⟨["terms_countries", "geo", "histogram_lots_awardDecisionDate", "terms_countries"],
      .lenient, [], _, rfl⟩
  have hother : IsSelected [.lotBidTotals, .countries] :=
    ⟨["count_lots_bids", "terms_countries"], .strict, [], _, rfl⟩
  obtain ⟨table, issues, otherTable, otherIssues, hrun, hrunOther, hsplits, hlocal⟩ :=
    read_splits_and_is_local ⟨fun _ _ => none, "en", 0, 2000, 2030⟩ hselection hother
      spoiledAnswer (.obj [("terms_countries", twoCountries)])
  exact ⟨hselection, hother, table, issues, otherTable, otherIssues, hrun, hrunOther, hsplits,
    hlocal "terms_countries" (by decide) (by decide) rfl⟩

end TenderSearch.Catalog
