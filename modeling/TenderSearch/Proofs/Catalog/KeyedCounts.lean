import Mathlib.Algebra.GroupWithZero.Nat
import TenderSearch.Proofs.Catalog.BucketLists
import TenderSearch.Proofs.Table.Ascending

/-!
# Counts under the keys of buckets

Four entries count the documents of every bucket under its key. Different keys
have a count each, so no bucket gets lost; but countries are counted under their
keys in lower case, and of keys that differ in case only the last one is counted.
-/

namespace TenderSearch.Catalog

/-- The text under which an entry counts the documents of a bucket. -/
def Entry.countKey : Entry → Bucket → String
  | .countries, bucket => Text.lowerCase bucket.name
  | _, bucket => bucket.name

/-- The entries with a count for every key. -/
def keyedEntries : List Entry :=
  [.countries, .indicators, .mainDivisions, .mainClassifications]

/-- What an entry puts in a table: for each bucket a value under its key. -/
def keyed {α : Type} (key : Bucket → String) (make : Bucket → α) (buckets : List Bucket) :
    List (String × α) :=
  buckets.map fun bucket => (key bucket, make bucket)

section Tables

variable {α : Type} {key : Bucket → String} {make : Bucket → α} {buckets : List Bucket}

theorem map_fst_keyed : (keyed key make buckets).map Prod.fst = buckets.map key := by
  simp [keyed, Function.comp_def]

/-- Different keys have a count each. -/
theorem perm_ofList_keyed {countOf : α → Nat}
    (hmake : ∀ bucket, countOf (make bucket) = bucket.count)
    (hdistinct : (buckets.map key).Nodup) :
    ((Table.ofList (keyed key make buckets)).map fun entry => countOf entry.2).Perm
      (buckets.map Bucket.count) := by
  have hcounts : (keyed key make buckets).map (fun entry => countOf entry.2) =
      buckets.map Bucket.count := by
    simp [keyed, Function.comp_def, hmake]
  rw [← hcounts]
  exact (Table.perm_ofList (map_fst_keyed ▸ hdistinct)).map _

theorem length_ofList_keyed_lt (hsame : ¬ (buckets.map key).Nodup) :
    (Table.ofList (keyed key make buckets)).length < buckets.length := by
  have hkeys : ¬ ((keyed key make buckets).map Prod.fst).Nodup := by
    rwa [map_fst_keyed]
  simpa [keyed] using Table.length_ofList_lt hkeys

end Tables

/-- The counts of a summary are those of a table that has been filled bucket by
bucket. -/
theorem exists_keyed_of_read {context : Context} {entry : Entry} (hentry : entry ∈ keyedEntries)
    {answer : Json} {summary : Summary} (hread : entry.read context answer = .ok summary) :
    ∃ buckets, entry.buckets? answer = some buckets ∧
      ∃ (α : Type) (countOf : α → Nat) (make : Bucket → α),
        (∀ bucket, countOf (make bucket) = bucket.count) ∧
        summary.documentCounts =
          (Table.ofList (keyed entry.countKey make buckets)).map fun entry => countOf entry.2 := by
  cases entry with
  | countries | indicators =>
      obtain ⟨buckets, hbuckets, rfl⟩ :=
        (Entry.read_eq_ok_iff_of_list rfl fun _ => rfl).mp hread
      exact ⟨buckets, hbuckets, Nat, id, Bucket.count, fun _ => rfl, rfl⟩
  | mainDivisions | mainClassifications =>
      obtain ⟨buckets, hbuckets, rfl⟩ :=
        (Entry.read_eq_ok_iff_of_list rfl fun _ => rfl).mp hread
      exact ⟨buckets, hbuckets, NamedCount, NamedCount.count, _, fun _ => rfl, rfl⟩
  | _ => exact absurd hentry (by decide)

/-- A summary counts every bucket if the keys differ, and fewer than there are
otherwise. -/
theorem every_bucket_is_counted_under_its_key (context : Context) {entry : Entry}
    (hentry : entry ∈ keyedEntries) {answer : Json} {summary : Summary}
    (hread : entry.read context answer = .ok summary) :
    ∃ buckets, entry.buckets? answer = some buckets ∧
      ((buckets.map entry.countKey).Nodup →
        summary.documentCounts.length = buckets.length ∧
        summary.documentCounts.sum = (buckets.map Bucket.count).sum) ∧
      (¬ (buckets.map entry.countKey).Nodup →
        summary.documentCounts.length < buckets.length) := by
  obtain ⟨buckets, hbuckets, α, countOf, make, hmake, hcounts⟩ :=
    exists_keyed_of_read hentry hread
  refine ⟨buckets, hbuckets, fun hdistinct => ?_, fun hsame => ?_⟩
  · have hperm := hcounts ▸ perm_ofList_keyed hmake hdistinct
    exact ⟨by simpa using hperm.length_eq, hperm.sum_nat⟩
  · rw [hcounts, List.length_map]
    exact length_ofList_keyed_lt hsame

/-- An answer with two buckets of countries. -/
def countryBuckets (first second : String) : Json :=
  .obj [("terms_countries", .obj [("buckets", .arr [
    .obj [("doc_count", Json.ofNat 11), ("key", .str first)],
    .obj [("doc_count", Json.ofNat 5), ("key", .str second)]])])]

/-- Two countries have a count each, but a country whose code is written in two ways
has one. -/
theorem every_bucket_is_counted_under_its_key_countries :
    Entry.countries ∈ keyedEntries ∧
    (Entry.countries.read ⟨fun _ _ => none, "en", 0, 2000, 2030⟩ (countryBuckets "SK" "CZ") =
        .ok (.counts [("cz", 5), ("sk", 11)]) ∧
      ∃ buckets, Entry.countries.buckets? (countryBuckets "SK" "CZ") = some buckets ∧
        (buckets.map Entry.countries.countKey).Nodup ∧
        2 = buckets.length ∧ 16 = (buckets.map Bucket.count).sum) ∧
    (Entry.countries.read ⟨fun _ _ => none, "en", 0, 2000, 2030⟩ (countryBuckets "CZ" "cz") =
        .ok (.counts [("cz", 5)]) ∧
      ∃ buckets, Entry.countries.buckets? (countryBuckets "CZ" "cz") = some buckets ∧
        ¬ (buckets.map Entry.countries.countKey).Nodup ∧ 1 < buckets.length) := by
  have hread : Entry.countries.read ⟨fun _ _ => none, "en", 0, 2000, 2030⟩
      (countryBuckets "SK" "CZ") = .ok (.counts [("cz", 5), ("sk", 11)]) := rfl
  have hsame : Entry.countries.read ⟨fun _ _ => none, "en", 0, 2000, 2030⟩
      (countryBuckets "CZ" "cz") = .ok (.counts [("cz", 5)]) := rfl
  refine ⟨by decide, ⟨hread, ?_⟩, hsame, ?_⟩
  · obtain ⟨buckets, hbuckets, hcounts, -⟩ :=
      every_bucket_is_counted_under_its_key _ (by decide) hread
    have hkeys : buckets.map Entry.countries.countKey = ["sk", "cz"] := by
      obtain rfl := Option.some.inj hbuckets
      rfl
    have hdistinct : (buckets.map Entry.countries.countKey).Nodup := by
      rw [hkeys]
      decide
    exact ⟨buckets, hbuckets, hdistinct, hcounts hdistinct⟩
  · obtain ⟨buckets, hbuckets, -, hfewer⟩ :=
      every_bucket_is_counted_under_its_key _ (by decide) hsame
    have hkeys : buckets.map Entry.countries.countKey = ["cz", "cz"] := by
      obtain rfl := Option.some.inj hbuckets
      rfl
    have hequal : ¬ (buckets.map Entry.countries.countKey).Nodup := by
      rw [hkeys]
      decide
    exact ⟨buckets, hbuckets, hequal, hfewer hequal⟩

/-- Of a country whose code is written in two ways, the documents under the first
one are not counted. -/
theorem countries_in_both_cases_are_counted_once :
    ∃ buckets summary,
      Entry.countries.buckets? (countryBuckets "CZ" "cz") = some buckets ∧
      (buckets.map Bucket.name).Nodup ∧
      Entry.countries.read ⟨fun _ _ => none, "en", 0, 2000, 2030⟩ (countryBuckets "CZ" "cz") =
        .ok summary ∧
      summary.documentCounts.length < buckets.length ∧
      summary.documentCounts.sum < (buckets.map Bucket.count).sum :=
  ⟨_, .counts [("cz", 5)], rfl, by decide, rfl, by decide, by decide⟩

end TenderSearch.Catalog
