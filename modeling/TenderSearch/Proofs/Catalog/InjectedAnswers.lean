import TenderSearch.Proofs.Catalog.LaidFragments
import TenderSearch.Proofs.Catalog.TemplateAnswers
import TenderSearch.Proofs.Tree.QuietQueries

/-!
# Answers after an injection

Answers are read through a filter layer only at their root. The layers of an
injection into the templates of the catalog do no harm to this, apart from two
scopes: there an entry reads through a fragment that is nested at the scope and is
not at the root.
-/

namespace TenderSearch.Catalog

open Json Report TenderSearch.Tree

/-! ## Templates are regular -/

section Templates

variable {scope : String}

theorem regular_template (entry : Entry) : Regular scope entry.template := by
  cases entry <;>
    simp [Entry.template, nestedIn, filteredBy, topGroups, topHit, termsOf, mainCodes, regions,
      awardDates, must, isTrue, regular_leaf_iff, regular_branch_iff, quiet_obj_iff,
      quiet_arr_iff, NothingToWrap, NoneNestedAt, Table.get?, Json.ofNat, Json.ofInt]

/-- The scope that an entry reads through below the root of its answer. -/
def Entry.innerScope? : Entry → Option String
  | .topWinningCompanies => some "lots.bids.bidders"
  | .lotBidTotals => some "lots.bids"
  | _ => none

theorem clearWay_template {entry : Entry} (hscope : entry.innerScope? ≠ some scope) :
    ∀ need ∈ entry.needs, clearWay scope need.path entry.template = true := by
  cases entry <;>
    simp_all [Entry.innerScope?, Entry.needs, Need.path, clearWay, Entry.template, nestedIn,
      filteredBy, mainCodes, child?, childMap, get?, at?, Table.get?, isNestedAt, nestedAt, string?]

end Templates

/-! ## Requests -/

theorem exists_entry_of_mem_request {selection : Selection} {key : String} {fragment : Json}
    (hmem : (key, fragment) ∈ selection.request) :
    ∃ entry ∈ selection, entry.id = key ∧ entry.template = fragment := by
  have hentry := (Table.mem_or_mem_of_mem_extend hmem).resolve_left List.not_mem_nil
  simpa using hentry

/-- Each selected entry is asked for with its template. -/
theorem get?_request {selection : Selection} {entry : Entry} (hentry : entry ∈ selection) :
    Table.get? entry.id selection.request = some entry.template := by
  refine Table.get?_extend_of_mem (List.mem_map_of_mem hentry) fun other hother => ?_
  obtain ⟨another, -, heq⟩ := List.mem_map.mp hother
  rw [Prod.mk.injEq] at heq
  rw [← heq.2, Entry.id_inj heq.1]

theorem injectIntoMap_request {scope : String} {filter : Json} (hfilter : Quiet scope filter)
    (selection : Selection) :
    injectIntoMap scope filter selection.request =
      some (laidMap scope filter selection.request, countMap scope selection.request) := by
  refine injectIntoMap_laidMap hfilter fun fragment hfragment => ?_
  obtain ⟨entry, -, -, htemplate⟩ := exists_entry_of_mem_request hfragment
  rw [← htemplate]
  exact regular_template entry

/-- After one injection into the request of a selection, strict work reads every
well-shaped answer to the fragments that come out, and there is a summary for each
selected id. The filter may not hold an aggregation that is nested at the scope, and
no selected entry may read through the scope below its root. -/
theorem read_injected_answers (context : Context) (selection : Selection) {scope : String}
    {filter : Json} (hfilter : Quiet scope filter)
    (hscope : ∀ entry ∈ selection, entry.innerScope? ≠ some scope) :
    ∃ injected count, injectIntoMap scope filter selection.request = some (injected, count) ∧
      ∀ answer, (∀ entry ∈ selection, ∀ fragment, Table.get? entry.id injected = some fragment →
          answered fragment entry.id answer = true) →
        ∃ table, (∀ earlier, runIn .strict earlier (selection.read context answer) =
            (.ok table, earlier)) ∧
          ∀ id, Table.has id table = true ↔ id ∈ selection.ids := by
  refine ⟨_, _, injectIntoMap_request hfilter selection, fun answer hanswers => ?_⟩
  obtain ⟨table, hrun, hids, -⟩ := exists_table_of_suits context fun entry hentry => by
    have hget : Table.get? entry.id (laidMap scope filter selection.request) =
        some (laid scope filter entry.id entry.template) := by
      rw [get?_laidMap, get?_request hentry, Option.map_some]
    exact ⟨_, suits_laid (regular_template entry) (suits_template entry)
      (child?_filter_template entry) (clearWay_template (hscope entry hentry)),
      hanswers entry hentry _ hget⟩
  exact ⟨table, hrun, hids⟩

/-- An answer with a layer below the root of the regions and one below the last
fragment of the totals. -/
def layeredAnswer : Json :=
  .obj [
    ("count_lots_bids", .obj [
      ("doc_count", Json.ofNat 4),
      ("lotsbids", .obj [
        ("doc_count", Json.ofNat 6),
        ("lotsbids_nested_filter", .obj [
          ("doc_count", Json.ofNat 3),
          ("lotsbids_nested", .obj [
            ("doc_count", Json.ofNat 3),
            ("lotsbids_nested_filter", .obj [("doc_count", Json.ofNat 2)])])])]),
      ("top_reverse_nested", .obj [("doc_count", Json.ofNat 1)])]),
    ("terms_company_nuts", .obj [
      ("doc_count", Json.ofNat 5),
      ("terms_company_nuts_filter", .obj [
        ("company_nuts_nested", .obj [("buckets", .arr [
          .obj [("doc_count", Json.ofNat 2), ("key", .str "PL-22"),
            ("key_as_string", .null)]])]),
        ("doc_count", Json.ofNat 3)])])]

/-- The entries of a selection are read with layers at the root, and with a layer
below the last fragment that is read. -/
theorem read_injected_answers_at_bidders :
    Quiet "lots.bids.bidders" Fragment.matchAll ∧
    (∀ entry ∈ [Entry.companyRegions, .lotBidTotals],
      entry.innerScope? ≠ some "lots.bids.bidders") ∧
    ∃ injected count, injectIntoMap "lots.bids.bidders" Fragment.matchAll
        (Selection.request [.companyRegions, .lotBidTotals]) = some (injected, count) ∧
      (∀ entry ∈ [Entry.companyRegions, .lotBidTotals], ∀ fragment,
        Table.get? entry.id injected = some fragment →
          answered fragment entry.id layeredAnswer = true) ∧
      ∃ table, (∀ earlier, runIn .strict earlier
          (Selection.read ⟨fun _ _ => none, "en", 0, 2000, 2030⟩ layeredAnswer
            [.companyRegions, .lotBidTotals]) = (.ok table, earlier)) ∧
        ∀ id, Table.has id table = true ↔ id ∈ Selection.ids [.companyRegions, .lotBidTotals] := by
  have hquiet := quiet_matchAll "lots.bids.bidders"
  have hscope : ∀ entry ∈ [Entry.companyRegions, .lotBidTotals],
      entry.innerScope? ≠ some "lots.bids.bidders" := by decide
  obtain ⟨injected, count, hinject, hread⟩ := read_injected_answers
    ⟨fun _ _ => none, "en", 0, 2000, 2030⟩ [.companyRegions, .lotBidTotals] hquiet hscope
  have hanswers : ∀ entry ∈ [Entry.companyRegions, .lotBidTotals], ∀ fragment,
      Table.get? entry.id injected = some fragment →
        answered fragment entry.id layeredAnswer = true := by
    cases hinject
    refine List.forall_mem_cons.mpr ⟨?_, List.forall_mem_singleton.mpr ?_⟩
    · intro fragment hget
      cases hget
      decide
    · intro fragment hget
      cases hget
      decide
  exact ⟨hquiet, hscope, injected, count, hinject, hanswers, hread _ hanswers⟩

/-- A well-shaped answer to an entry's template after an injection that is not read. -/
structure IsRefused (entry : Entry) (scope : String) (filter answer : Json) (path : String) :
    Prop where
  quiet : Quiet scope filter
  asked : ∃ injected count fragment,
    injectIntoMap scope filter (Selection.request [entry]) = some (injected, count) ∧
      Table.get? entry.id injected = some fragment ∧
      answered fragment entry.id answer = true
  refused : ∀ context earlier, runIn .strict earlier (Selection.read context answer [entry]) =
    (.error (.malformedAnswer entry.id path), earlier)

/-- A layer below the root is not looked through. -/
theorem isRefused_at_inner_scopes :
    IsRefused .topWinningCompanies "lots.bids.bidders" Fragment.matchAll
      (.obj [("top_winning_companies", .obj [
        ("doc_count", Json.ofNat 2),
        ("top_winning_companies_nested_filter", .obj [
          ("companies", .obj [
            ("companies_filter", .obj [
              ("companies_nested", .obj [("buckets", .arr [])]),
              ("doc_count", Json.ofNat 1)]),
            ("doc_count", Json.ofNat 2)]),
          ("doc_count", Json.ofNat 2)])])])
      "top_winning_companies_nested_filter.companies.companies_nested" ∧
    IsRefused .lotBidTotals "lots.bids" Fragment.matchAll
      (.obj [("count_lots_bids", .obj [
        ("doc_count", Json.ofNat 3),
        ("lotsbids", .obj [
          ("doc_count", Json.ofNat 2),
          ("lotsbids_filter", .obj [
            ("doc_count", Json.ofNat 2),
            ("lotsbids_nested_filter", .obj [
              ("doc_count", Json.ofNat 1),
              ("lotsbids_nested", .obj [("doc_count", Json.ofNat 1)])])])]),
        ("top_reverse_nested", .obj [("doc_count", Json.ofNat 1)])])])
      "lotsbids.lotsbids_nested_filter.lotsbids_nested" := by
  refine ⟨⟨quiet_matchAll _, ?_, fun _ _ => rfl⟩, ⟨quiet_matchAll _, ?_, fun _ _ => rfl⟩⟩
  · refine ⟨_, _, _, rfl, rfl, ?_⟩
    decide
  · refine ⟨_, _, _, rfl, rfl, ?_⟩
    decide

end TenderSearch.Catalog
