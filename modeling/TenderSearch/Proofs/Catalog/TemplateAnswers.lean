import TenderSearch.Proofs.Catalog.Reading

/-!
# Answers to templates

The templates of the catalog ask for everything that the entries read. So every
well-shaped answer to them can be read, and a top list has a group for every
bucket.
-/

namespace TenderSearch.Catalog

open Json Report

theorem child?_filter_template (entry : Entry) :
    child? (entry.id ++ "_filter") entry.template = none := by
  cases entry <;> decide

theorem suits_template (entry : Entry) : Suits entry entry.template where
  needs := by
    rw [rootFragment, child?_filter_template]
    cases entry <;> decide
  root layer hlayer := by
    rw [child?_filter_template] at hlayer
    cases hlayer
  whole path hpath := by
    cases entry with
    | topAuthorities | topCompanies | topWinningCompanies => rfl
    | _ => simp [Entry.needs] at hpath

/-- No filter layer is looked through in an answer to a template. -/
theorem at?_of_answerRoot? {entry : Entry} {answer root : Json}
    (hanswered : answered entry.template entry.id answer = true)
    (hroot : answerRoot? answer entry.id = some root) (path : List String) :
    answer.at? (entry.id :: path) = root.at? path := by
  rw [answered, Option.any_eq_true] at hanswered
  obtain ⟨part, hpart, hshaped⟩ := hanswered
  have hstray : part.get? (entry.id ++ "_filter") = none := by
    simpa [child?_filter_template] using (Bool.and_eq_true_iff.mp hshaped).2
  obtain rfl : part = root := by
    simpa [answerRoot?, hpart, hstray] using hroot
  rw [at?, hpart, Option.bind_some]

/-- Strict work reads every well-shaped answer to the templates of a selection, and
there is a summary for each selected id and no other. A top list has one group for
each bucket of the list that it reads, in the order of the buckets, with the count
of the bucket and the document of its first hit. -/
theorem read_template_answers (context : Context) (selection : Selection) (answer : Json)
    (hanswers : ∀ entry ∈ selection, answered entry.template entry.id answer = true) :
    ∃ table, (∀ earlier, runIn .strict earlier (selection.read context answer) =
        (.ok table, earlier)) ∧
      (∀ id, Table.has id table = true ↔ id ∈ selection.ids) ∧
      ∀ entry ∈ selection, ∀ path, .groups path ∈ entry.needs → ∃ items count groups,
        answer.at? (entry.id :: (path ++ ["buckets"])) = some (.arr items) ∧
        Table.get? entry.id table = some (.top count groups) ∧
        List.Forall₂ IsGroupOf items groups := by
  obtain ⟨table, hrun, hids, hsummaries⟩ := exists_table_of_suits context fun entry hentry =>
    ⟨entry.template, suits_template entry, hanswers entry hentry⟩
  refine ⟨table, hrun, hids, fun entry hentry path hpath => ?_⟩
  obtain ⟨root, summary, hroot, hread, hget⟩ := hsummaries entry hentry
  obtain ⟨items, count, groups, hitems, rfl, hforall⟩ := hread.groups path hpath
  refine ⟨items, count, groups, ?_, hget, hforall⟩
  rw [at?_of_answerRoot? (hanswers entry hentry) hroot, hitems]

/-- An answer with two winning companies, the first of them with two documents, and
a year without a text for its key. -/
def awardAnswer : Json :=
  .obj [
    ("histogram_lots_awardDecisionDate", .obj [
      ("dates_nested", .obj [("buckets", .arr [
        .obj [("doc_count", Json.ofNat 4), ("key", Json.ofNat 0)]])]),
      ("doc_count", Json.ofNat 4)]),
    ("top_winning_companies", .obj [
      ("doc_count", Json.ofNat 9),
      ("top_winning_companies_nested_filter", .obj [
        ("companies", .obj [
          ("companies_nested", .obj [("buckets", .arr [
            .obj [("doc_count", Json.ofNat 3),
              ("hits", .obj [("hits", .obj [("hits", .arr [
                .obj [("_source", .str "a")], .obj [("_source", .str "b")]])])]),
              ("key", .str "one")],
            .obj [("doc_count", Json.ofNat 2),
              ("hits", .obj [("hits", .obj [("hits", .arr [.obj [("_source", .str "c")]])])]),
              ("key", .str "two")]])]),
          ("doc_count", Json.ofNat 5)]),
        ("doc_count", Json.ofNat 7)])])]

/-- A top list below two layers is read together with counts by year. -/
theorem read_template_answers_two_entries :
    (∀ entry ∈ [Entry.awardYears, .topWinningCompanies],
      answered entry.template entry.id awardAnswer = true) ∧
    ∃ table, (∀ earlier, runIn .strict earlier
        (Selection.read ⟨fun _ _ => none, "en", 0, 2000, 2030⟩ awardAnswer
          [.awardYears, .topWinningCompanies]) = (.ok table, earlier)) ∧
      (∀ id, Table.has id table = true ↔
        id ∈ Selection.ids [.awardYears, .topWinningCompanies]) ∧
      ∀ entry ∈ [Entry.awardYears, .topWinningCompanies], ∀ path,
        .groups path ∈ entry.needs → ∃ items count groups,
          awardAnswer.at? (entry.id :: (path ++ ["buckets"])) = some (.arr items) ∧
          Table.get? entry.id table = some (.top count groups) ∧
          List.Forall₂ IsGroupOf items groups := by
  have hanswers : ∀ entry ∈ [Entry.awardYears, .topWinningCompanies],
      answered entry.template entry.id awardAnswer = true := by decide
  exact ⟨hanswers, read_template_answers _ _ _ hanswers⟩

end TenderSearch.Catalog
