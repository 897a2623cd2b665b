import TenderSearch.Proofs.Binary64.Rounding
import TenderSearch.Proofs.Catalog.BucketLists
import TenderSearch.Proofs.Json.Recoding
import TenderSearch.Proofs.Table.Ascending

/-!
# Where the numbers of summaries come from

An answer can be read for an entry if it holds all that the entry needs. Then
every count of the summary is the count of a layer or of a bucket in the answer,
and every document the first hit of a bucket. Amounts are the exception: where
a bucket has no sum, zero is put in its place.
-/

namespace TenderSearch.Catalog

open Json

/-! ## What answers hold -/

/-- The document of an item: that of its first hit. -/
def document? (item : Json) : Option Json := do
  (← firstHit? (← item.at? ["hits", "hits", "hits"])).get? "_source"

/-- Whether the root of an answer holds what is needed. -/
def Need.heldBy (root : Json) : Need → Bool
  | .count path => (root.at? path).any holdsCount
  | .buckets path => ((root.at? path).bind bucketItems?).any fun items => items.all isBucket
  | .groups path => ((root.at? path).bind bucketItems?).any fun items =>
      items.all fun item => isBucket item && (document? item).isSome

/-- Whether an answer holds all that an entry needs. Top lists have a count of
their own, above the filter layer. -/
def Entry.heldBy (answer : Json) (entry : Entry) : Bool :=
  (answerRoot? answer entry.id).any fun root =>
    entry.needs.all (Need.heldBy root) &&
      (!entry.isTopList || (answer.get? entry.id).any holdsCount)

/-! ## Readings that succeed -/

theorem isOk_orMissing {α : Type} (path : String) (value? : Option α) :
    (orMissing path value?).isOk = value?.isSome := by
  cases value? <;> rfl

theorem isOk_bind {α β : Type} {reading : Reading α} {next : α → Reading β} {holds : Bool}
    (hnext : ∀ value, reading = .ok value → (next value).isOk = holds) :
    (reading >>= next).isOk = (reading.isOk && holds) := by
  cases reading with
  | error path => rfl
  | ok value => exact hnext value rfl

theorem isSome_mapM {α β : Type} (read? : α → Option β) (items : List α) :
    (items.mapM read?).isSome = items.all fun item => (read? item).isSome := by
  induction items with
  | nil => rfl
  | cons item rest ih =>
      rw [List.mapM_cons, List.all_cons, ← ih]
      cases read? item <;> cases rest.mapM read? <;> rfl

theorem isOk_readCount (node : Json) (path : List String) :
    (readCount node path).isOk = (Need.count path).heldBy node := by
  rw [readCount, descend, Need.heldBy]
  cases node.at? path with
  | none => rfl
  | some part => exact isOk_orMissing _ _

theorem isSome_ofJson? (item : Json) : (Bucket.ofJson? item).isSome = isBucket item := by
  cases item with
  | obj fields =>
      have hbucket : isBucket (.obj fields) = ((Table.get? "key" fields).isSome &&
          ((Table.get? "doc_count" fields).bind (natOfBits? 64)).isSome &&
          (optionalText? (Table.get? "key_as_string" fields)).isSome) := by
        rw [isBucket, holdsCount, get?, get?, get?]
        rcases Table.get? "key_as_string" fields with _ | _ | _ | _ | _ | _ | _ <;> rfl
      rw [hbucket, Bucket.ofJson?]
      cases Table.get? "key" fields with
      | none => rfl
      | some key =>
          cases (Table.get? "doc_count" fields).bind (natOfBits? 64) with
          | none => rfl
          | some count => cases optionalText? (Table.get? "key_as_string" fields) <;> rfl
  | _ => rfl

/-- What the bucket that is read from an item has of it. -/
theorem of_ofJson?_eq_some {item : Json} {bucket : Bucket}
    (hbucket : Bucket.ofJson? item = some bucket) :
    item = .obj bucket.fields ∧ item.get? "doc_count" = some (Json.ofNat bucket.count) := by
  have hitem : isBucket item = true := by rw [← isSome_ofJson?, hbucket, Option.isSome_some]
  obtain ⟨other, hother, hfields⟩ := exists_bucket_of_isBucket hitem
  obtain rfl : other = bucket := Option.some.inj (hother.symm.trans hbucket)
  exact hfields

theorem isOk_readGroups (buckets : List Bucket) :
    (readGroups buckets).isOk = buckets.all fun bucket => (firstDocument? bucket).isSome := by
  induction buckets with
  | nil => rfl
  | cons bucket rest ih =>
      rw [List.all_cons, ← ih, readGroups]
      cases firstDocument? bucket with
      | none => rfl
      | some document => cases readGroups rest <;> rfl

/-- The buckets that are read have documents if the items have. -/
theorem any_all_firstDocument? (items : List Json) :
    ((items.mapM Bucket.ofJson?).any fun buckets =>
      buckets.all fun bucket => (firstDocument? bucket).isSome) =
      items.all fun item => isBucket item && (document? item).isSome := by
  induction items with
  | nil => rfl
  | cons item rest ih =>
      rw [List.mapM_cons, List.all_cons, ← ih, ← isSome_ofJson?]
      cases hbucket : Bucket.ofJson? item with
      | none => rfl
      | some bucket =>
          obtain ⟨rfl, -⟩ := of_ofJson?_eq_some hbucket
          cases rest.mapM Bucket.ofJson? with
          | none => exact (Bool.and_false _).symm
          | some buckets => rfl

/-- The items at the end of a path are those of buckets. -/
theorem Need.heldBy_buckets (root : Json) (path : List String) :
    (Need.buckets path).heldBy root = ((root.at? path).bind buckets?).isSome := by
  rw [Need.heldBy]
  cases root.at? path with
  | none => rfl
  | some part =>
      rw [Option.bind_some, Option.bind_some, buckets?]
      cases bucketItems? part with
      | none => rfl
      | some items => simp [isSome_mapM, isSome_ofJson?]

theorem Need.heldBy_groups (root : Json) (path : List String) :
    (Need.groups path).heldBy root = ((root.at? path).bind buckets?).any fun buckets =>
      buckets.all fun bucket => (firstDocument? bucket).isSome := by
  rw [Need.heldBy]
  cases root.at? path with
  | none => rfl
  | some part =>
      rw [Option.bind_some, Option.bind_some, buckets?]
      cases bucketItems? part with
      | none => rfl
      | some items => exact (any_all_firstDocument? items).symm

theorem isOk_readBuckets_bind {α : Type} (root : Json) (path : List String)
    (next : List Bucket → Reading α) :
    (readBuckets root path >>= next).isOk =
      ((root.at? path).bind buckets?).any fun buckets => (next buckets).isOk := by
  rw [readBuckets, descend]
  cases root.at? path with
  | none => rfl
  | some part =>
      change (orMissing _ (buckets? part) >>= next).isOk = (buckets? part).any _
      cases buckets? part <;> rfl

theorem isOk_summarized (root : Json) (path : List String) (summarize : List Bucket → Summary) :
    (do let buckets ← readBuckets root path; return summarize buckets : Reading Summary).isOk =
      (Need.buckets path).heldBy root := by
  rw [isOk_readBuckets_bind, Need.heldBy_buckets]
  cases (root.at? path).bind buckets? <;> rfl

theorem isOk_readTop (id : String) (path : List String) (answer root : Json) :
    (readTop id path answer root).isOk =
      ((Need.groups path).heldBy root && (answer.get? id).any holdsCount) := by
  have hwhole : (answer.get? id).any holdsCount = (readCount answer [id]).isOk := by
    rw [isOk_readCount, Need.heldBy, at?_singleton]
  rw [readTop, hwhole, Bool.and_comm]
  apply isOk_bind
  intro count _
  rw [isOk_readBuckets_bind, Need.heldBy_groups]
  congr 1
  funext buckets
  rw [← isOk_readGroups]
  cases readGroups buckets <;> rfl

theorem isOk_readTotals (context : Context) (root : Json) :
    (readTotals context root).isOk =
      Entry.lotBidTotals.needs.all (Need.heldBy root) := by
  simp only [readTotals, Entry.needs, List.all_cons, List.all_nil, ← isOk_readCount]
  exact isOk_bind fun _ _ => isOk_bind fun _ _ => isOk_bind fun _ _ => rfl

/-- An entry is read exactly if all that it needs is there. -/
theorem Entry.isOk_read (context : Context) (answer : Json) (entry : Entry) :
    (entry.read context answer).isOk = entry.heldBy answer := by
  rw [Entry.read, Entry.heldBy]
  cases answerRoot? answer entry.id with
  | none => rfl
  | some root =>
      change (entry.readRoot context answer root).isOk = _
      rw [Option.any_some]
      cases entry with
      | topAuthorities | topCompanies | topWinningCompanies =>
          rw [Entry.readRoot, isOk_readTop]
          simp [Entry.needs, Entry.isTopList]
      | lotBidTotals =>
          rw [Entry.readRoot, isOk_readTotals]
          simp [Entry.isTopList]
      | _ => exact (isOk_summarized root _ _).trans (by simp [Entry.needs, Entry.isTopList])

/-! ## Where numbers are looked up -/

/-- The list that an answer holds for an entry has an item. -/
def Entry.Lists (answer : Json) (entry : Entry) (item : Json) : Prop :=
  ∃ items, entry.items? answer = some items ∧ item ∈ items

/-- The places of an answer whose counts an entry reads. -/
inductive Entry.LooksAt (answer : Json) (entry : Entry) : Json → Prop
  | whole {part : Json} (htop : entry.isTopList = true)
      (hpart : answer.get? entry.id = some part) : LooksAt answer entry part
  | layer {path : List String} {root part : Json} (hneed : .count path ∈ entry.needs)
      (hroot : answerRoot? answer entry.id = some root) (hpart : root.at? path = some part) :
      LooksAt answer entry part
  | bucket {item : Json} (hitem : entry.Lists answer item) : LooksAt answer entry item

def Summary.amountTable : Summary → List (String × Binary64)
  | .amounts table => table
  | _ => []

def Summary.documents : Summary → List Json
  | .top _ groups => groups.map TopGroup.document
  | _ => []

/-- An amount is the sum in an item: the number that is there, or what the integer
that is there rounds to. -/
inductive IsSumOf (item : Json) (amount : Binary64) : Prop
  | float (hvalue : item.at? ["sum_price", "value"] = some (.num (.float amount)))
  | int {n : Int} (hvalue : item.at? ["sum_price", "value"] = some (.num (.int n)))
      (hrounds : Binary64.RoundsTo n amount) (hsign : amount.negative = decide (n < 0))

/-- All numbers of a summary are in the answer, apart from zeros for sums that
are not there. -/
structure IsSourced (answer : Json) (entry : Entry) (summary : Summary) : Prop where
  counts : ∀ count ∈ summary.documentCounts, ∃ node, entry.LooksAt answer node ∧
    node.get? "doc_count" = some (Json.ofNat count)
  amounts : ∀ key amount, (key, amount) ∈ summary.amountTable → ∃ item bucket,
    entry.Lists answer item ∧ Bucket.ofJson? item = some bucket ∧ bucket.name = key ∧
    (IsSumOf item amount ∨ (∀ sum, ¬ IsSumOf item sum) ∧ amount = Binary64.zero)
  documents : ∀ document ∈ summary.documents, ∃ item,
    entry.Lists answer item ∧ document? item = some document

theorem exists_count_of_readCount {node : Json} {path : List String} {count : Nat}
    (hread : readCount node path = .ok count) : ∃ part, node.at? path = some part ∧
      part.get? "doc_count" = some (Json.ofNat count) := by
  obtain ⟨part, hpart, hcount⟩ := readCount_eq_ok_iff.mp hread
  obtain ⟨value, hvalue, hbits⟩ := Option.bind_eq_some_iff.mp hcount
  exact ⟨part, hpart, by rw [hvalue, eq_ofNat_of_natOfBits? hbits]⟩

theorem Bucket.sum_spec (bucket : Bucket) :
    IsSumOf (.obj bucket.fields) bucket.sum ∨
      (∀ sum, ¬ IsSumOf (.obj bucket.fields) sum) ∧ bucket.sum = Binary64.zero := by
  rw [Bucket.sum]
  split
  next number hvalue =>
    cases number with
    | float x => exact .inl (.float hvalue)
    | int n =>
        have hrounded := Binary64.isRounded_ofInt? n
        rw [Number.toBinary64?]
        cases hfloat : Binary64.ofInt? n with
        | some x =>
            rw [hfloat] at hrounded
            exact .inl (.int hvalue hrounded (Binary64.negative_of_ofInt? hfloat))
        | none =>
            rw [hfloat] at hrounded
            refine .inr ⟨fun sum hsum => ?_, rfl⟩
            cases hsum with
            | float hother => cases hvalue.symm.trans hother
            | int hother hrounds =>
                cases hvalue.symm.trans hother
                exact hrounded sum hrounds
  next hnone =>
    refine .inr ⟨fun sum hsum => ?_, rfl⟩
    cases hsum with
    | float hother => exact hnone _ hother
    | int hother => exact hnone _ hother

/-! ## Summaries of buckets -/

section Buckets

variable {answer : Json} {entry : Entry} {buckets : List Bucket}
  (hbuckets : entry.buckets? answer = some buckets)
include hbuckets

theorem exists_item {bucket : Bucket} (hbucket : bucket ∈ buckets) :
    ∃ item, entry.Lists answer item ∧ Bucket.ofJson? item = some bucket := by
  obtain ⟨items, hitems, hread⟩ := Option.bind_eq_some_iff.mp hbuckets
  obtain ⟨item, hitem, hbucket⟩ := exists_mem_of_mapM hread bucket hbucket
  exact ⟨item, ⟨items, hitems, hitem⟩, hbucket⟩

theorem exists_node_of_bucket {bucket : Bucket} (hbucket : bucket ∈ buckets) :
    ∃ node, entry.LooksAt answer node ∧
      node.get? "doc_count" = some (Json.ofNat bucket.count) := by
  obtain ⟨item, hitem, hread⟩ := exists_item hbuckets hbucket
  exact ⟨item, .bucket hitem, (of_ofJson?_eq_some hread).2⟩

/-- A table with nothing but counts of buckets. -/
theorem isSourced_of_counts {κ α : Type} [DecidableEq κ] [LT κ] [DecidableLT κ]
    [LE κ] [Std.LawfulOrderLT κ] [Std.IsLinearOrder κ] (countOf : α → Nat)
    {entries : List (κ × α)} {summary : Summary}
    (hentries : ∀ entry ∈ entries, ∃ bucket ∈ buckets, bucket.count = countOf entry.2)
    (hcounts : summary.documentCounts =
      (Table.ofList entries).map fun entry => countOf entry.2)
    (hamounts : summary.amountTable = []) (hdocuments : summary.documents = []) :
    IsSourced answer entry summary where
  counts count hcount := by
    rw [hcounts] at hcount
    obtain ⟨entry, hentry, rfl⟩ := List.mem_map.mp hcount
    obtain ⟨bucket, hbucket, heq⟩ := hentries entry (Table.mem_of_mem_ofList hentry)
    exact heq ▸ exists_node_of_bucket hbuckets hbucket
  amounts key amount hamount := by
    rw [hamounts] at hamount
    cases hamount
  documents document hdocument := by
    rw [hdocuments] at hdocument
    cases hdocument

theorem isSourced_of_sums : IsSourced answer entry
    (.amounts (Table.ofList (buckets.map fun bucket => (bucket.name, bucket.sum)))) where
  counts _ hcount := absurd hcount List.not_mem_nil
  amounts key amount hamount := by
    obtain ⟨bucket, hbucket, heq⟩ := List.mem_map.mp (Table.mem_of_mem_ofList hamount)
    obtain ⟨rfl, rfl⟩ := Prod.mk.inj heq
    obtain ⟨item, hitem, hread⟩ := exists_item hbuckets hbucket
    obtain ⟨rfl, -⟩ := of_ofJson?_eq_some hread
    exact ⟨_, bucket, hitem, hread, rfl, bucket.sum_spec⟩
  documents _ hdocument := absurd hdocument List.not_mem_nil

end Buckets

/-- Every group is that of a bucket. -/
theorem exists_bucket_of_readGroups {buckets : List Bucket} {groups : List TopGroup}
    (hread : readGroups buckets = .ok groups) : ∀ group ∈ groups, ∃ bucket ∈ buckets,
      bucket.count = group.count ∧ firstDocument? bucket = some group.document := by
  induction buckets generalizing groups with
  | nil =>
      cases hread
      exact fun _ hgroup => absurd hgroup List.not_mem_nil
  | cons bucket rest ih =>
      rw [readGroups] at hread
      simp only [bind_eq_ok_iff, orMissing_eq_ok_iff] at hread
      obtain ⟨document, hdocument, others, hothers, hgroups⟩ := hread
      cases hgroups
      refine List.forall_mem_cons.mpr ⟨⟨bucket, List.mem_cons_self, rfl, hdocument⟩, ?_⟩
      intro group hgroup
      obtain ⟨other, hother, hsame⟩ := ih hothers group hgroup
      exact ⟨other, List.mem_cons_of_mem _ hother, hsame⟩

theorem isSourced_of_readTop {answer root : Json} {entry : Entry} {path : List String}
    (htop : entry.isTopList = true) (hlist : entry.listPath? = some path)
    (hroot : answerRoot? answer entry.id = some root) {summary : Summary}
    (hread : readTop entry.id path answer root = .ok summary) :
    IsSourced answer entry summary := by
  simp only [readTop, bind_eq_ok_iff, readBuckets_eq_ok_iff] at hread
  obtain ⟨count, hcount, buckets, hbuckets, groups, hgroups, hsummary⟩ := hread
  cases hsummary
  have hlisted : entry.buckets? answer = some buckets := by
    rw [Entry.buckets?_eq hlist, hroot, Option.bind_some, hbuckets]
  have hsource := exists_bucket_of_readGroups hgroups
  constructor
  case counts =>
    obtain ⟨whole, hwhole, hcount⟩ := exists_count_of_readCount hcount
    rw [at?_singleton] at hwhole
    refine List.forall_mem_cons.mpr ⟨⟨whole, .whole htop hwhole, hcount⟩, ?_⟩
    intro groupCount hmem
    obtain ⟨group, hgroup, rfl⟩ := List.mem_map.mp hmem
    obtain ⟨bucket, hbucket, heq, -⟩ := hsource group hgroup
    exact heq ▸ exists_node_of_bucket hlisted hbucket
  case amounts => exact fun _ _ hamount => absurd hamount List.not_mem_nil
  case documents =>
    intro document hmem
    obtain ⟨group, hgroup, rfl⟩ := List.mem_map.mp hmem
    obtain ⟨bucket, hbucket, -, hdocument⟩ := hsource group hgroup
    obtain ⟨item, hitem, hread⟩ := exists_item hlisted hbucket
    obtain ⟨rfl, -⟩ := of_ofJson?_eq_some hread
    exact ⟨_, hitem, hdocument⟩

theorem isSourced_of_readTotals {context : Context} {answer root : Json}
    (hroot : answerRoot? answer Entry.lotBidTotals.id = some root) {summary : Summary}
    (hread : readTotals context root = .ok summary) :
    IsSourced answer .lotBidTotals summary := by
  simp only [readTotals, bind_eq_ok_iff] at hread
  obtain ⟨bids, hbids, awardedBids, hawarded, lots, hlots, hsummary⟩ := hread
  cases hsummary
  have hlayer : ∀ path count, .count path ∈ Entry.lotBidTotals.needs →
      readCount root path = .ok count → ∃ node, Entry.lotBidTotals.LooksAt answer node ∧
        node.get? "doc_count" = some (Json.ofNat count) := by
    intro path count hneed hcount
    obtain ⟨part, hpart, hcount⟩ := exists_count_of_readCount hcount
    exact ⟨part, .layer hneed hroot hpart, hcount⟩
  constructor
  case counts =>
    simp only [Summary.documentCounts, List.forall_mem_cons]
    exact ⟨hlayer _ _ (by simp [Entry.needs]) hbids, hlayer _ _ (by simp [Entry.needs]) hawarded,
      hlayer _ _ (by simp [Entry.needs]) hlots,
      fun _ hcount => absurd hcount List.not_mem_nil⟩
  case amounts => exact fun _ _ hamount => absurd hamount List.not_mem_nil
  case documents => exact fun _ hdocument => absurd hdocument List.not_mem_nil

theorem count_of_yearCount? {context : Context} {bucket : Bucket} {year : Int × Nat}
    (hyear : yearCount? context bucket = some year) : bucket.count = year.2 := by
  obtain ⟨number, -, hyear⟩ := Option.bind_eq_some_iff.mp hyear
  split at hyear
  next => rw [← Option.some.inj hyear]
  next => cases hyear

theorem isSourced_of_list {context : Context} {answer : Json} {entry : Entry}
    {path : List String} {summarize : List Bucket → Summary}
    (hpath : entry.listPath? = some path)
    (hentry : ∀ root, entry.readRoot context answer root =
      (do let buckets ← readBuckets root path; return summarize buckets))
    (hsourced : ∀ buckets, entry.buckets? answer = some buckets →
      IsSourced answer entry (summarize buckets)) {summary : Summary}
    (hread : entry.read context answer = .ok summary) : IsSourced answer entry summary := by
  obtain ⟨buckets, hbuckets, rfl⟩ := (Entry.read_eq_ok_iff_of_list hpath hentry).mp hread
  exact hsourced buckets hbuckets

theorem isSourced_of_read {context : Context} {answer : Json} {entry : Entry} {summary : Summary}
    (hread : entry.read context answer = .ok summary) : IsSourced answer entry summary := by
  obtain ⟨root, hroot, hsummary⟩ := Entry.read_eq_ok_iff.mp hread
  cases entry with
  | topAuthorities | topCompanies | topWinningCompanies =>
      exact isSourced_of_readTop rfl rfl hroot hsummary
  | lotBidTotals => exact isSourced_of_readTotals hroot hsummary
  | finalPriceSums =>
      exact isSourced_of_list rfl (fun _ => rfl) (fun _ => isSourced_of_sums) hread
  | countries | indicators =>
      refine isSourced_of_list rfl (fun _ => rfl) (fun buckets hbuckets => ?_) hread
      refine isSourced_of_counts hbuckets id ?_ rfl rfl rfl
      exact List.forall_mem_map.mpr fun bucket hbucket => ⟨bucket, hbucket, rfl⟩
  | mainDivisions | mainClassifications =>
      refine isSourced_of_list rfl (fun _ => rfl) (fun buckets hbuckets => ?_) hread
      refine isSourced_of_counts hbuckets NamedCount.count ?_ rfl rfl rfl
      exact List.forall_mem_map.mpr fun bucket hbucket => ⟨bucket, hbucket, rfl⟩
  | companyRegions | authorityRegions =>
      refine isSourced_of_list rfl (fun _ => rfl) (fun buckets hbuckets => ?_) hread
      refine isSourced_of_counts hbuckets id ?_ rfl rfl rfl
      -- sorting keeps the buckets
      exact List.forall_mem_map.mpr fun bucket hbucket =>
        ⟨bucket, List.mem_mergeSort.mp hbucket, rfl⟩
  | awardYears | awardYearsReversed =>
      refine isSourced_of_list rfl (fun _ => rfl) (fun buckets hbuckets => ?_) hread
      refine isSourced_of_counts hbuckets id ?_ rfl rfl rfl
      intro year hyear
      obtain ⟨bucket, hbucket, hcount⟩ := List.mem_filterMap.mp hyear
      exact ⟨bucket, hbucket, count_of_yearCount? hcount⟩

/-- An answer that holds all that is needed is read into a summary of what it
holds. Any other answer is malformed. -/
theorem numbers_are_those_of_the_answer (context : Context) (entry : Entry) (answer : Json) :
    (entry.heldBy answer = true → ∃ summary, entry.read context answer = .ok summary ∧
      IsSourced answer entry summary) ∧
    (entry.heldBy answer = false → ∃ path,
      Selection.malformed? context answer entry = some (.malformedAnswer entry.id path)) := by
  rw [← Entry.isOk_read context, Selection.malformed?]
  cases hread : entry.read context answer with
  | ok summary =>
      exact ⟨fun _ => ⟨summary, rfl, isSourced_of_read hread⟩, fun herror => (by cases herror)⟩
  | error path => exact ⟨fun hok => (by cases hok), fun _ => ⟨path, rfl⟩⟩

/-- An answer with buckets of currencies. -/
def currencies (buckets : List Json) : Json :=
  .obj [("sums_finalPrice", .obj [("buckets", .arr buckets)])]

def crowns : Json :=
  .obj [("doc_count", Json.ofNat 1), ("key", .str "CZK"),
    ("sum_price", .obj [("value", Json.ofNat 1500)])]

def eurosWithoutSum : Json :=
  .obj [("doc_count", Json.ofNat 2), ("key", .str "EUR")]

theorem numbers_are_those_of_the_answer_currencies :
    Entry.finalPriceSums.heldBy (currencies [crowns, eurosWithoutSum]) = true ∧
    Entry.countries.heldBy (currencies [crowns, eurosWithoutSum]) = false ∧
    (∃ summary, Entry.finalPriceSums.read ⟨fun _ _ => none, "en", 0, 2000, 2030⟩
        (currencies [crowns, eurosWithoutSum]) = .ok summary ∧
      IsSourced (currencies [crowns, eurosWithoutSum]) .finalPriceSums summary) ∧
    ∃ path, Selection.malformed? ⟨fun _ _ => none, "en", 0, 2000, 2030⟩
        (currencies [crowns, eurosWithoutSum]) .countries =
      some (.malformedAnswer "terms_countries" path) :=
  ⟨rfl, rfl, (numbers_are_those_of_the_answer _ _ _).1 rfl,
    (numbers_are_those_of_the_answer _ .countries _).2 rfl⟩

/-- An amount of zero stands for euros that the answer has no sum of. -/
theorem missing_sum_is_made_up :
    Entry.finalPriceSums.read ⟨fun _ _ => none, "en", 0, 2000, 2030⟩
      (currencies [eurosWithoutSum]) = .ok (.amounts [("EUR", Binary64.zero)]) ∧
    ∀ item sum, Entry.finalPriceSums.Lists (currencies [eurosWithoutSum]) item →
      ¬ IsSumOf item sum := by
  refine ⟨rfl, ?_⟩
  rintro item sum ⟨items, hitems, hitem⟩ hsum
  obtain rfl : [eurosWithoutSum] = items := Option.some.inj hitems
  obtain rfl := List.mem_singleton.mp hitem
  cases hsum with
  | float hvalue => cases hvalue
  | int hvalue => cases hvalue

end TenderSearch.Catalog
