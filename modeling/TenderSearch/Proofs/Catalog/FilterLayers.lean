import TenderSearch.Proofs.Catalog.BucketLists
import TenderSearch.Proofs.Json.Recoding

/-!
# Looking through filter layers

Where a filter layer stands between an entry and the rest of its answer, readers
go on below the layer. Only the count of a top list is read above it.
-/

namespace TenderSearch.Catalog

open Json

/-- An answer with a value for one entry. -/
def answerWith (entry : Entry) (value : Json) : Json :=
  .obj [(entry.id, value)]

/-- A count, and a filter layer for an id with everything else in it. -/
def behindFilter (id : String) (count : Nat) (inner : Json) : Json :=
  ofFields [("doc_count", Json.ofNat count), (id ++ "_filter", inner)]

theorem get?_answerWith (entry : Entry) (value : Json) :
    (answerWith entry value).get? entry.id = some value := by
  rw [answerWith, get?, Table.get?_cons, if_pos rfl]

theorem answerRoot?_behindFilter (entry : Entry) (count : Nat) (inner : Json) :
    answerRoot? (answerWith entry (behindFilter entry.id count inner)) entry.id = some inner := by
  have hlayer : (behindFilter entry.id count inner).get? (entry.id ++ "_filter") = some inner :=
    Table.get?_insert_self _ _ _
  rw [answerRoot?, get?_answerWith, Option.map_some, hlayer, Option.getD_some]

theorem answerRoot?_of_has_eq_false {entry : Entry} {fields : Fields}
    (hstray : Table.has (entry.id ++ "_filter") fields = false) :
    answerRoot? (answerWith entry (.obj fields)) entry.id = some (.obj fields) := by
  have hnone : (Json.obj fields).get? (entry.id ++ "_filter") = none := by
    simpa [Table.has, get?] using hstray
  rw [answerRoot?, get?_answerWith, Option.map_some, hnone, Option.getD_none]

theorem readCount_answerWith {entry : Entry} (value : Json) {count : Nat}
    (hcount : (value.get? "doc_count").bind (natOfBits? 64) = some count) :
    readCount (answerWith entry value) [entry.id] = .ok count := by
  refine readCount_eq_ok_iff.mpr ⟨value, ?_, hcount⟩
  rw [at?_singleton, get?_answerWith]

theorem count_behindFilter (entry : Entry) {count : Nat} (hcount : count < Nat.pow 2 64)
    (inner : Json) :
    ((behindFilter entry.id count inner).get? "doc_count").bind (natOfBits? 64) = some count := by
  have hkey : entry.id ++ "_filter" ≠ "doc_count" := by
    cases entry <;> decide
  have hget : (behindFilter entry.id count inner).get? "doc_count" = some (Json.ofNat count) :=
    (Table.get?_insert_of_ne hkey _ _).trans (Table.get?_insert_self _ _ _)
  rw [hget, Option.bind_some, natOfBits?_ofNat hcount]

/-- Readings of a top list with the same groups and two counts, or with the same
path missing. -/
inductive SameGroups (count other : Nat) : Reading Summary → Reading Summary → Prop where
  | missing (path : String) : SameGroups count other (.error path) (.error path)
  | read (groups : List TopGroup) :
      SameGroups count other (.ok (.top count groups)) (.ok (.top other groups))

/-- An entry reads the same behind a filter layer as without it: the same summary,
or that the same path is missing. The count of a top list is the one thing that
is read above the layer. -/
theorem filter_layer_is_transparent (context : Context) (entry : Entry) {count : Nat}
    (hcount : count < Nat.pow 2 64) {fields : Fields}
    (hstray : Table.has (entry.id ++ "_filter") fields = false) :
    (entry.isTopList = false →
      entry.read context (answerWith entry (behindFilter entry.id count (.obj fields))) =
        entry.read context (answerWith entry (.obj fields))) ∧
    (entry.isTopList = true → ∀ own,
      (Table.get? "doc_count" fields).bind (natOfBits? 64) = some own →
      SameGroups count own
        (entry.read context (answerWith entry (behindFilter entry.id count (.obj fields))))
        (entry.read context (answerWith entry (.obj fields)))) := by
  have hread : ∀ answer, answerRoot? answer entry.id = some (.obj fields) →
      entry.read context answer = entry.readRoot context answer (.obj fields) := by
    intro answer hroot
    rw [Entry.read, hroot]
    rfl
  rw [hread _ (answerRoot?_behindFilter entry count _),
    hread _ (answerRoot?_of_has_eq_false hstray)]
  constructor
  · intro htop
    exact entry.readRoot_congr htop context _ _ _
  · intro htop own hown
    obtain ⟨path, -, htop⟩ := Entry.readRoot_of_isTopList htop
    rw [htop, htop, readTop_eq_map (readCount_answerWith _ (count_behindFilter entry hcount _)),
      readTop_eq_map (readCount_answerWith (.obj fields) hown)]
    cases readBuckets (.obj fields) path >>= readGroups with
    | error path => exact .missing path
    | ok groups => exact .read groups

/-- One authority with tenders, among five documents. -/
def oneAuthority : Fields :=
  [("authorities_nested", .obj [("buckets", .arr [
      .obj [("doc_count", Json.ofNat 3),
        ("hits", .obj [("hits", .obj [("hits", .arr [.obj [("_source", .str "city")]])])]),
        ("key", .str "one")]])]),
    ("doc_count", Json.ofNat 5)]

/-- Of the regions of companies there is no list of buckets, so both readings miss
the same path. -/
theorem filter_layer_is_transparent_authority :
    Table.has "top_authorities_filter" oneAuthority = false ∧
    Table.has "terms_company_nuts_filter" oneAuthority = false ∧
    (Table.get? "doc_count" oneAuthority).bind (natOfBits? 64) = some 5 ∧
    SameGroups 8 5
      (Entry.topAuthorities.read ⟨fun _ _ => none, "en", 0, 2000, 2030⟩
        (answerWith .topAuthorities (behindFilter "top_authorities" 8 (.obj oneAuthority))))
      (Entry.topAuthorities.read ⟨fun _ _ => none, "en", 0, 2000, 2030⟩
        (answerWith .topAuthorities (.obj oneAuthority))) ∧
    Entry.companyRegions.read ⟨fun _ _ => none, "en", 0, 2000, 2030⟩
        (answerWith .companyRegions (behindFilter "terms_company_nuts" 8 (.obj oneAuthority))) =
      Entry.companyRegions.read ⟨fun _ _ => none, "en", 0, 2000, 2030⟩
        (answerWith .companyRegions (.obj oneAuthority)) := by
  have hauthorities : Table.has (Entry.topAuthorities.id ++ "_filter") oneAuthority = false := by
    decide
  have hregions : Table.has (Entry.companyRegions.id ++ "_filter") oneAuthority = false := by
    decide
  exact ⟨hauthorities, hregions, rfl,
    (filter_layer_is_transparent _ .topAuthorities (by decide) hauthorities).2 rfl 5 rfl,
    (filter_layer_is_transparent _ .companyRegions (by decide) hregions).1 rfl⟩

end TenderSearch.Catalog
