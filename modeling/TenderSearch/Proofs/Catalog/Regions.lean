import Mathlib.Data.List.TakeWhile
import TenderSearch.Proofs.Catalog.BucketLists
import TenderSearch.Proofs.Table.Ascending
import TenderSearch.Proofs.Text.ByteOrder
import TenderSearch.Proofs.Text.Integers

/-!
# Counts by regions

The buckets of a region are told by the start of their keys, and the bucket with
the greatest key gives the count. As buckets are sorted by their keys first, it
makes no difference in which order the engine lists them.
-/

namespace TenderSearch

/-! ## The region of a key -/

namespace Text

/-- Neither the first nor the last character is blank. -/
def IsTrimmed (text : List Char) : Prop :=
  (∀ c ∈ text.head?, isBlank c = false) ∧ ∀ c ∈ text.getLast?, isBlank c = false

theorem not_isBlank_of_mem_head?_dropWhile (text : List Char) {c : Char}
    (hc : c ∈ (text.dropWhile isBlank).head?) : isBlank c = false := by
  have hhead := List.head?_dropWhile_not isBlank text
  rw [Option.mem_def.mp hc] at hhead
  exact hhead

theorem isTrimmed_trim (text : List Char) : IsTrimmed (trim text) := by
  constructor
  · intro c hc
    obtain ⟨rest, hrest⟩ := List.head?_eq_some_iff.mp hc
    have hsplit : trimStart text = trim text ++
        ((trimStart text).reverse.takeWhile isBlank).reverse := by
      rw [trim, trimEnd, ← List.reverse_append, List.takeWhile_append_dropWhile,
        List.reverse_reverse]
    apply not_isBlank_of_mem_head?_dropWhile text
    rw [← trimStart, hsplit, hrest]
    rfl
  · intro c hc
    rw [trim, trimEnd, List.getLast?_reverse] at hc
    exact not_isBlank_of_mem_head?_dropWhile _ hc

theorem trim_of_isBlanks {text : List Char} (htext : IsBlanks text) : trim text = [] := by
  have hstart : trimStart text = [] := List.dropWhile_eq_nil_iff.mpr htext
  rw [trim, hstart]
  rfl

theorem trim_eq_iff {text core : List Char} :
    trim text = core ↔ IsPadded core text ∧ IsTrimmed core := by
  constructor
  · rintro rfl
    exact ⟨exists_trim text, isTrimmed_trim text⟩
  · rintro ⟨⟨before, after, rfl, hbefore, hafter⟩, hhead, hlast⟩
    by_cases hcore : core = []
    · -- blanks only
      rw [hcore, List.nil_append]
      exact trim_of_isBlanks (List.forall_mem_append.mpr ⟨hbefore, hafter⟩)
    · have hfirst := List.head?_eq_some_head hcore
      have hend := List.getLast?_eq_some_getLast hcore
      exact trim_append hbefore hafter ⟨_, hfirst, hhead _ hfirst⟩ ⟨_, hend, hlast _ hend⟩

end Text

namespace Catalog

/-- A region is what stands before the first hyphen of a key, or the whole key if
there is none, without the blanks around it. -/
def IsRegionOf (region key : String) : Prop :=
  ∃ start rest, key.toList = start ++ rest ∧ '-' ∉ start ∧ (∀ c ∈ rest.head?, c = '-') ∧
    Text.IsPadded region.toList start ∧ Text.IsTrimmed region.toList

theorem takeWhile_eq_of_hyphen {start rest : List Char} (hstart : '-' ∉ start)
    (hrest : ∀ c ∈ rest.head?, c = '-') : (start ++ rest).takeWhile (· ≠ '-') = start := by
  have hnone : rest.takeWhile (· ≠ '-') = [] := by
    cases rest with
    | nil => rfl
    | cons c others => exact List.takeWhile_cons_of_neg (by simp [hrest c rfl])
  rw [List.takeWhile_append_of_pos, hnone, List.append_nil]
  intro c hc
  simpa using fun heq : c = '-' => hstart (heq ▸ hc)

theorem regionOf_eq_iff {region key : String} : regionOf key = region ↔ IsRegionOf region key := by
  rw [regionOf, ← String.toList_inj, String.toList_ofList, Text.trim_eq_iff]
  constructor
  · rintro ⟨hpadded, htrimmed⟩
    refine ⟨_, key.toList.dropWhile (· ≠ '-'), List.takeWhile_append_dropWhile.symm, ?_, ?_,
      hpadded, htrimmed⟩
    · intro hhyphen
      simpa using List.all_eq_true.mp List.all_takeWhile _ hhyphen
    · intro c hc
      have hhead := List.head?_dropWhile_not (· ≠ '-') key.toList
      rw [Option.mem_def.mp hc] at hhead
      simpa using hhead
  · rintro ⟨start, rest, hkey, hstart, hrest, hpadded, htrimmed⟩
    rw [hkey, takeWhile_eq_of_hyphen hstart hrest]
    exact ⟨hpadded, htrimmed⟩

/-! ## Buckets in the order of their keys -/

def inKeyOrder (buckets : List Bucket) : List Bucket :=
  buckets.mergeSort fun a b => !decide (b.name < a.name)

theorem pairwise_inKeyOrder {buckets : List Bucket}
    (hdistinct : (buckets.map Bucket.name).Nodup) :
    (inKeyOrder buckets).Pairwise fun a b => a.name < b.name := by
  have hsorted : (inKeyOrder buckets).Pairwise fun a b => a.name ≤ b.name := by
    have hle : ∀ a b : Bucket, (!decide (b.name < a.name)) = true ↔ a.name ≤ b.name := by
      intro a b
      rw [Bool.not_eq_true', decide_eq_false_iff_not, Std.not_lt]
    apply (List.pairwise_mergeSort ?_ ?_ buckets).imp
    · exact fun {a b} => (hle a b).mp
    · intro a b c hab hbc
      rw [hle] at hab hbc ⊢
      exact Std.le_trans hab hbc
    · intro a b
      rw [Bool.or_eq_true, hle, hle]
      exact Std.le_total
  have hnodup : (inKeyOrder buckets).Pairwise fun a b => a.name ≠ b.name := by
    have hperm := (List.mergeSort_perm buckets fun a b => !decide (b.name < a.name)).map Bucket.name
    exact List.pairwise_map.mp (hperm.nodup_iff.mpr hdistinct)
  exact hsorted.imp₂ (fun _ _ => Std.lt_of_le_of_ne) hnodup

/-- Lists of the same buckets are sorted alike. -/
theorem inKeyOrder_eq_of_perm {buckets others : List Bucket} (hperm : buckets.Perm others)
    (hdistinct : (buckets.map Bucket.name).Nodup) : inKeyOrder buckets = inKeyOrder others := by
  have hsorted := pairwise_inKeyOrder hdistinct
  have hothers := pairwise_inKeyOrder ((hperm.map Bucket.name).nodup_iff.mp hdistinct)
  refine List.Perm.eq_of_pairwise ?_ hsorted hothers ?_
  · intro a b _ _ hab hba
    exact absurd (Std.lt_trans hab hba) Std.lt_irrefl
  · exact (List.mergeSort_perm _ _).trans (hperm.trans (List.mergeSort_perm _ _).symm)

/-! ## Counts -/

/-- The bucket of a region with the greatest key, byte by byte. -/
structure IsGreatestIn (region : String) (buckets : List Bucket) (bucket : Bucket) : Prop where
  mem : bucket ∈ buckets
  inRegion : IsRegionOf region bucket.name
  greatest : ∀ other ∈ buckets, IsRegionOf region other.name →
    ¬ Text.utf8 bucket.name < Text.utf8 other.name

def regionCounts (buckets : List Bucket) : List (String × Nat) :=
  Table.ofList ((inKeyOrder buckets).map fun bucket => (regionOf bucket.name, bucket.count))

theorem has_regionCounts_iff {buckets : List Bucket} {region : String} :
    Table.has region (regionCounts buckets) = true ↔
      ∃ bucket ∈ buckets, IsRegionOf region bucket.name := by
  simp only [regionCounts, Table.has_ofList_iff, List.map_map, List.mem_map, Function.comp_apply,
    inKeyOrder, List.mem_mergeSort, regionOf_eq_iff]

/-- The last bucket of a region in the order of the keys is its greatest one. -/
theorem get?_regionCounts_iff {buckets : List Bucket}
    (hdistinct : (buckets.map Bucket.name).Nodup) {region : String} {count : Nat} :
    Table.get? region (regionCounts buckets) = some count ↔
      ∃ bucket, IsGreatestIn region buckets bucket ∧ bucket.count = count := by
  have hsorted := pairwise_inKeyOrder hdistinct
  have hmem : ∀ bucket, bucket ∈ inKeyOrder buckets ↔ bucket ∈ buckets := fun _ =>
    List.mem_mergeSort
  rw [regionCounts, Table.get?_ofList_eq_some_iff]
  constructor
  · rintro ⟨before, after, hentries, hafter⟩
    obtain ⟨smaller, rest, hsplit, -, hrest⟩ := List.map_eq_append_iff.mp hentries
    obtain ⟨bucket, greater, rfl, hbucket, rfl⟩ := List.map_eq_cons_iff.mp hrest
    obtain ⟨hregion, hcount⟩ := Prod.mk.inj hbucket
    rw [hsplit, List.pairwise_append] at hsorted
    refine ⟨bucket, ⟨(hmem _).mp (by simp [hsplit]), regionOf_eq_iff.mp hregion, ?_⟩, hcount⟩
    intro other hother hsame hlt
    have hplace : other ∈ smaller ∨ other = bucket ∨ other ∈ greater := by
      simpa [hsplit] using (hmem other).mpr hother
    rw [Text.utf8_lt_iff] at hlt
    rcases hplace with hsmaller | rfl | hgreater
    · exact Std.lt_irrefl (Std.lt_trans hlt (hsorted.2.2 _ hsmaller _ List.mem_cons_self))
    · exact Std.lt_irrefl hlt
    · exact hafter _ (List.mem_map_of_mem hgreater) (regionOf_eq_iff.mpr hsame)
  · rintro ⟨bucket, hgreatest, rfl⟩
    obtain ⟨smaller, greater, hsplit⟩ := List.append_of_mem ((hmem _).mpr hgreatest.mem)
    rw [hsplit, List.pairwise_append, List.pairwise_cons] at hsorted
    refine ⟨smaller.map fun bucket => (regionOf bucket.name, bucket.count),
      greater.map fun bucket => (regionOf bucket.name, bucket.count), ?_, ?_⟩
    · rw [hsplit, List.map_append, List.map_cons, regionOf_eq_iff.mpr hgreatest.inRegion]
    · intro entry hentry hregion
      obtain ⟨other, hother, rfl⟩ := List.mem_map.mp hentry
      have hbuckets : other ∈ buckets := (hmem other).mp (by simp [hsplit, hother])
      apply hgreatest.greatest other hbuckets (regionOf_eq_iff.mp hregion)
      exact Text.utf8_lt_iff.mpr (hsorted.2.1.1 other hother)

/-! ## Lists in another order -/

theorem exists_perm_of_mapM {α β : Type} {read? : α → Option β} {items others : List α}
    (hperm : items.Perm others) {values : List β} (hvalues : items.mapM read? = some values) :
    ∃ otherValues, others.mapM read? = some otherValues ∧ values.Perm otherValues := by
  induction hperm generalizing values with
  | nil => exact ⟨values, hvalues, .refl _⟩
  | cons item _ ih =>
      simp only [List.mapM_cons, Option.bind_eq_bind, Option.bind_eq_some_iff, Option.pure_def,
        Option.some.injEq] at hvalues ⊢
      obtain ⟨value, hvalue, rest, hrest, rfl⟩ := hvalues
      obtain ⟨otherRest, hother, hperm⟩ := ih hrest
      exact ⟨value :: otherRest, ⟨value, hvalue, otherRest, hother, rfl⟩, hperm.cons value⟩
  | swap first second rest =>
      simp only [List.mapM_cons, Option.bind_eq_bind, Option.bind_eq_some_iff, Option.pure_def,
        Option.some.injEq] at hvalues ⊢
      obtain ⟨value, hvalue, _, ⟨other, hother, values, hrest, rfl⟩, rfl⟩ := hvalues
      exact ⟨other :: value :: values,
        ⟨other, hother, _, ⟨value, hvalue, values, hrest, rfl⟩, rfl⟩, .swap ..⟩
  | trans _ _ ih ih' =>
      obtain ⟨middle, hmiddle, hperm⟩ := ih hvalues
      obtain ⟨last, hlast, hperm'⟩ := ih' hmiddle
      exact ⟨last, hlast, hperm.trans hperm'⟩

theorem read_regions {context : Context} {entry : Entry}
    (hentry : entry ∈ [Entry.companyRegions, .authorityRegions]) {answer : Json}
    {buckets : List Bucket} (hbuckets : entry.buckets? answer = some buckets) :
    entry.read context answer = .ok (.counts (regionCounts buckets)) := by
  simp only [List.mem_cons, List.not_mem_nil, or_false] at hentry
  rcases hentry with rfl | rfl
  · exact (Entry.read_eq_ok_iff_of_list rfl fun _ => rfl).mpr ⟨buckets, hbuckets, rfl⟩
  · exact (Entry.read_eq_ok_iff_of_list rfl fun _ => rfl).mpr ⟨buckets, hbuckets, rfl⟩

/-- Where the buckets of a list have different keys, their order makes no difference
to the counts by regions. There is a count for every region that has a bucket, and
it is that of the bucket with the greatest key. -/
theorem region_counts_ignore_order (context : Context) {entry : Entry}
    (hentry : entry ∈ [Entry.companyRegions, .authorityRegions]) {answer other : Json}
    {items others : List Json} (hitems : entry.items? answer = some items)
    (hothers : entry.items? other = some others) (hperm : items.Perm others)
    {buckets : List Bucket} (hbuckets : items.mapM Bucket.ofJson? = some buckets)
    (hdistinct : (buckets.map Bucket.name).Nodup) :
    ∃ counts, entry.read context answer = .ok (.counts counts) ∧
      entry.read context other = .ok (.counts counts) ∧
      (∀ region, Table.has region counts = true ↔
        ∃ bucket ∈ buckets, IsRegionOf region bucket.name) ∧
      ∀ region count, Table.get? region counts = some count ↔
        ∃ bucket, IsGreatestIn region buckets bucket ∧ bucket.count = count := by
  obtain ⟨otherBuckets, hread, hbucketsPerm⟩ := exists_perm_of_mapM hperm hbuckets
  have hanswer : entry.buckets? answer = some buckets := by
    rw [Entry.buckets?, hitems]
    exact hbuckets
  have hother : entry.buckets? other = some otherBuckets := by
    rw [Entry.buckets?, hothers]
    exact hread
  refine ⟨regionCounts buckets, read_regions hentry hanswer, ?_,
    fun _ => has_regionCounts_iff, fun _ _ => get?_regionCounts_iff hdistinct⟩
  rw [read_regions hentry hother, regionCounts, ← inKeyOrder_eq_of_perm hbucketsPerm hdistinct,
    ← regionCounts]

def regionBucket (key : String) (count : Nat) : Bucket :=
  { key := .str key, keyText := none, count,
    fields := [("doc_count", Json.ofNat count), ("key", .str key)] }

/-- Two buckets of one region, and one with blanks around its region. -/
def threeBuckets : List Bucket :=
  [regionBucket "PL-51" 3, regionBucket "PL-22" 7, regionBucket " SK0 - x" 1]

def asItems (buckets : List Bucket) : Json :=
  .obj [("company_nuts_nested", .obj [("buckets",
    .arr (buckets.map fun bucket => .obj bucket.fields))])]

/-- The same buckets backwards, behind a filter layer. -/
theorem region_counts_ignore_order_backwards :
    ∃ counts,
      Entry.companyRegions.read ⟨fun _ _ => none, "en", 0, 2000, 2030⟩
        (.obj [("terms_company_nuts", asItems threeBuckets)]) = .ok (.counts counts) ∧
      Entry.companyRegions.read ⟨fun _ _ => none, "en", 0, 2000, 2030⟩
        (.obj [("terms_company_nuts", .obj [("doc_count", Json.ofNat 20),
          ("terms_company_nuts_filter", asItems threeBuckets.reverse)])]) =
            .ok (.counts counts) ∧
      (∀ region, Table.has region counts = true ↔
        ∃ bucket ∈ threeBuckets, IsRegionOf region bucket.name) ∧
      ∀ region count, Table.get? region counts = some count ↔
        ∃ bucket, IsGreatestIn region threeBuckets bucket ∧ bucket.count = count :=
  region_counts_ignore_order _ (by decide) rfl rfl
    ((List.reverse_perm threeBuckets).symm.map fun bucket => .obj bucket.fields) rfl (by decide)

end Catalog

end TenderSearch
