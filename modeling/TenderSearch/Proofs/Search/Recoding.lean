import TenderSearch.Proofs.Aggregation.Recoding
import TenderSearch.Proofs.Clause.Recoding
import TenderSearch.Proofs.Settings.Recoding
import TenderSearch.Search.Body
import TenderSearch.Search.Record

/-!
# Recoding searches

A stored search is the search that was written, part by part, so its body is the
same too. The same holds of each of its parts alone and of settings.
-/

namespace TenderSearch

open Json

namespace SortOrder

theorem recodes : Recodes toJson ofJson? fun _ => True := by
  refine recodes_of_decode_encode ?_ fun _ _ _ => trivial
  rintro ⟨field, ascending⟩ -
  cases field with
  | none => rfl
  | some field => rfl

end SortOrder

namespace Search

/-- The clauses are normal, and the sizes of the aggregations fit. -/
structure IsNormal (search : Search) : Prop where
  filters : ∀ clause ∈ search.filters, clause.IsNormal
  aggregations : ∀ aggregations, search.aggregations = some aggregations →
    ∀ aggregation ∈ aggregations, aggregation.Fits

section Written

variable (search : Search)

def writtenFields : Fields :=
  fieldUnless search.aggregations.isNone "aggregations"
      (.arr (Aggregation.toItems (search.aggregations.getD []))) ++
    fieldUnless search.filters.isEmpty "filters" (.arr (Clause.toItems search.filters)) ++
    [("sort", (search.sort.map SortOrder.toJson).getD .null)]

theorem optional?_sort_written :
    optional? "sort" SortOrder.ofJson? search.writtenFields = some search.sort := by
  unfold writtenFields optional?
  rw [List.append_assoc, get?_fieldUnless_append, get?_fieldUnless_append]
  cases hsort : search.sort with
  | none => simp [Table.get?]
  | some sort =>
      have hread : SortOrder.ofJson? sort.toJson = some sort :=
        SortOrder.recodes.decode_encode sort trivial
      rw [SortOrder.toJson] at hread
      simp [Table.get?, SortOrder.toJson, hread]

theorem defaulted?_filters_written (hfilters : ∀ clause ∈ search.filters, clause.IsNormal) :
    defaulted? "filters" [] Clause.joined? search.writtenFields = some search.filters := by
  have hread : Clause.ofItems? (Clause.toItems search.filters) = some search.filters :=
    Clause.ofItems?_toItems search.filters hfilters
  unfold writtenFields defaulted?
  rw [List.append_assoc, get?_fieldUnless_append, get?_fieldUnless_append]
  cases hempty : search.filters with
  | nil => simp [Table.get?]
  | cons first rest => simpa [hempty, Clause.joined?] using hread

theorem optional?_aggregations_written
    (haggregations : ∀ aggregations, search.aggregations = some aggregations →
      ∀ aggregation ∈ aggregations, aggregation.Fits) :
    optional? "aggregations" Aggregation.children? search.writtenFields =
      some search.aggregations := by
  unfold writtenFields optional?
  rw [List.append_assoc, get?_fieldUnless_append, get?_fieldUnless_append]
  cases hasked : search.aggregations with
  | none => simp [Table.get?]
  | some aggregations =>
      have hread := Aggregation.ofItems?_toItems aggregations (haggregations aggregations hasked)
      simp [Aggregation.children?, hread]

end Written

theorem ofJson?_toJson (search : Search) (hnormal : search.IsNormal) :
    ofJson? search.toJson = some search := by
  change (do
    let sort ← optional? "sort" SortOrder.ofJson? search.writtenFields
    let filters ← defaulted? "filters" [] Clause.joined? search.writtenFields
    let aggregations ← optional? "aggregations" Aggregation.children? search.writtenFields
    return { sort, filters, aggregations }) = some search
  rw [search.optional?_sort_written, search.defaulted?_filters_written hnormal.filters,
    search.optional?_aggregations_written hnormal.aggregations]
  rfl

theorem isNormal_of_ofJson? (value : Json) (search : Search)
    (hread : ofJson? value = some search) : search.IsNormal := by
  unfold ofJson? at hread
  obtain ⟨fields, -, hread⟩ := Option.bind_eq_some_iff.mp hread
  obtain ⟨sort, -, hread⟩ := Option.bind_eq_some_iff.mp hread
  obtain ⟨filters, hfilters, hread⟩ := Option.bind_eq_some_iff.mp hread
  obtain ⟨aggregations?, haggregations, hread⟩ := Option.bind_eq_some_iff.mp hread
  cases hread
  constructor
  · exact property_of_defaulted? (∀ clause ∈ ·, clause.IsNormal) (fun _ hmem => nomatch hmem)
      (fun member => (Clause.isNormal_of_read member).2) hfilters
  · rintro aggregations rfl
    obtain ⟨member, hmember⟩ := exists_of_optional? haggregations
    exact (Aggregation.fits_of_read member).2 aggregations hmember

theorem recodes : Recodes toJson ofJson? IsNormal :=
  recodes_of_decode_encode ofJson?_toJson isNormal_of_ofJson?

end Search

/-- Reading takes back what writing did for searches, clauses, aggregations, sort
orders and settings. All that is read is normal, recoding twice is recoding once, and
a search that is recoded still has its body, in whatever setup. -/
theorem records_recode :
    Recodes Search.toJson Search.ofJson? Search.IsNormal ∧
    Recodes Clause.toJson Clause.ofJson? Clause.IsNormal ∧
    Recodes Aggregation.toJson Aggregation.ofJson? Aggregation.Fits ∧
    Recodes SortOrder.toJson SortOrder.ofJson? (fun _ => True) ∧
    Recodes Settings.toJson Settings.ofJson? Settings.Fits ∧
    ∀ setup value,
      ((recode? Search.toJson Search.ofJson? value).bind Search.ofJson?).map (Search.body setup) =
        (Search.ofJson? value).map (Search.body setup) := by
  refine ⟨Search.recodes, Clause.recodes, Aggregation.recodes, SortOrder.recodes,
    Settings.recodes, ?_⟩
  intro setup value
  rw [Search.recodes.bind_decode]

/-- One value is written as a list of one, and null is left out. -/
example :
    recode? Clause.toJson Clause.ofJson? (.obj [
      ("and", .arr [.arr [.str "fuzzy", .str "title"]]), ("field", .str "lots.value"),
      ("mode", .null), ("type", .str "term"), ("value", ofInt 3)]) =
    some (.obj [
      ("and", .arr [.obj [("field", .str "title"), ("type", .str "fuzzy"), ("value", .arr [])]]),
      ("field", .str "lots.value"), ("type", .str "term"), ("value", .arr [ofInt 3])]) := rfl

end TenderSearch
