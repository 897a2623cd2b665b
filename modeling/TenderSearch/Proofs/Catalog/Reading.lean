import Mathlib.Data.List.Forall2
import TenderSearch.Proofs.Catalog.Outcome
import TenderSearch.Proofs.Catalog.Shape

/-!
# Reading well-shaped answers

Every entry of the catalog reads a few places below the root of its answer. If
the fragment that was asked for has fragments of the right kinds at these places,
every well-shaped answer can be read. The templates of the catalog have them.
-/

namespace TenderSearch.Catalog

open Json Report

/-- What an entry reads at the end of a path. -/
inductive Need where
  | count (path : List String)
  | buckets (path : List String)
  /-- Buckets with documents in them. -/
  | groups (path : List String)
deriving DecidableEq

def Need.path : Need → List String
  | .count path => path
  | .buckets path => path
  | .groups path => path

def Entry.needs : Entry → List Need
  | .topAuthorities => [.groups ["authorities_nested"]]
  | .topCompanies => [.groups ["companies_nested"]]
  | .topWinningCompanies =>
      [.groups ["top_winning_companies_nested_filter", "companies", "companies_nested"]]
  | .finalPriceSums => [.buckets []]
  | .mainDivisions => [.buckets ["cpvs_filter", "divisionscpvs"]]
  | .countries => [.buckets []]
  | .mainClassifications => [.buckets ["cpvs_filter", "cpvs_full"]]
  | .indicators => [.buckets []]
  | .companyRegions => [.buckets ["company_nuts_nested"]]
  | .authorityRegions => [.buckets ["authority_nuts_nested"]]
  | .awardYears => [.buckets ["dates_nested"]]
  | .awardYearsReversed => [.buckets ["dates_nested"]]
  | .lotBidTotals =>
      [.count ["lotsbids"], .count ["lotsbids", "lotsbids_nested_filter", "lotsbids_nested"],
        .count []]

/-- Whether a fragment asks for what is needed at the end of the path. -/
def Need.metBy (fragment : Json) : Need → Bool
  | .count path => (target? path fragment).any fun target => answerKind? target = some .layer
  | .buckets path => (target? path fragment).any fun target => answerKind? target = some .buckets
  | .groups path => (target? path fragment).any fun target =>
      answerKind? target = some .buckets &&
        (child? "hits" target).any fun hits => answerKind? hits = some .hits

/-- The fragment that an entry's answer is read from: the filter layer for its id,
if there is one. -/
def rootFragment (id : String) (fragment : Json) : Json :=
  (child? (id ++ "_filter") fragment).getD fragment

/-- A group of a top list has the count of its bucket and the document of the
bucket's first hit. -/
def IsGroupOf (item : Json) (group : TopGroup) : Prop :=
  item.get? "doc_count" = some (Json.ofNat group.count) ∧
    ∃ first rest, item.at? ["hits", "hits", "hits"] = some (.arr (first :: rest)) ∧
      first.get? "_source" = some group.document

/-! ## Counts and buckets -/

theorem readCount_eq {node part : Json} {path : List String} (hpart : node.at? path = some part) :
    readCount node path = orMissing (pathText path ++ ".doc_count")
      ((part.get? "doc_count").bind (natOfBits? 64)) := by
  rw [readCount, descend, hpart]
  rfl

theorem readBuckets_eq {node part : Json} {path : List String}
    (hpart : node.at? path = some part) :
    readBuckets node path = orMissing (pathText path ++ ".buckets") (buckets? part) := by
  rw [readBuckets, descend, hpart]
  rfl

theorem eq_ofNat_of_natOfBits? {bits count : Nat} {value : Json}
    (hvalue : natOfBits? bits value = some count) : value = Json.ofNat count := by
  obtain ⟨n, hn, rfl⟩ := Option.map_eq_some_iff.mp hvalue
  unfold intIn? at hn
  split at hn
  next m =>
    split at hn
    next hbounds =>
      cases hn
      rw [Json.ofNat, Json.ofInt, Int.toNat_of_nonneg hbounds.1]
    next => cases hn
  next => cases hn

theorem readCount_of_metBy {fragment node : Json} (hshaped : wellShaped fragment node = true)
    {path : List String} (hmet : (Need.count path).metBy fragment = true) :
    ∃ count, readCount node path = .ok count := by
  rw [Need.metBy, Option.any_eq_true] at hmet
  obtain ⟨target, htarget, hkind⟩ := hmet
  obtain ⟨part, hpart, hshaped⟩ := exists_part_of_target? hshaped htarget
  obtain ⟨count, hcount⟩ := exists_count_of_wellShaped hshaped (by simpa using hkind)
  exact ⟨count, by rw [readCount_eq hpart, hcount, orMissing]⟩

/-- The bucket that is read from an item. -/
theorem exists_bucket_of_isBucket {item : Json} (hitem : isBucket item = true) :
    ∃ bucket, Bucket.ofJson? item = some bucket ∧ item = .obj bucket.fields ∧
      item.get? "doc_count" = some (Json.ofNat bucket.count) := by
  simp only [isBucket, holdsCount, Bool.and_eq_true, Option.isSome_iff_exists] at hitem
  obtain ⟨⟨⟨key, hkey⟩, ⟨count, hcount⟩⟩, htext⟩ := hitem
  cases item with
  | obj fields =>
      obtain ⟨value, hvalue, hbits⟩ := Option.bind_eq_some_iff.mp hcount
      have hdoc : (Json.obj fields).get? "doc_count" = some (Json.ofNat count) := by
        rw [hvalue, eq_ofNat_of_natOfBits? hbits]
      obtain ⟨keyText, hkeyText⟩ :
          ∃ text, optionalText? (Table.get? "key_as_string" fields) = some text := by
        rw [get?] at htext
        split at htext
        next hnone => exact ⟨none, by rw [hnone]; rfl⟩
        next hnull => exact ⟨none, by rw [hnull]; rfl⟩
        next text hstr => exact ⟨some text, by rw [hstr]; rfl⟩
        next => cases htext
      refine ⟨⟨key, keyText, count, fields⟩, ?_, rfl, hdoc⟩
      rw [get?] at hkey hcount
      simp [Bucket.ofJson?, hkey, hcount, hkeyText]
  | _ => cases hkey

/-- A list of buckets is read bucket by bucket. -/
theorem readBuckets_of_target? {fragment node : Json} (hshaped : wellShaped fragment node = true)
    {path : List String} {target : Json} (htarget : target? path fragment = some target)
    (hkind : answerKind? target = some .buckets) :
    ∃ items buckets, node.at? (path ++ ["buckets"]) = some (.arr items) ∧
      readBuckets node path = .ok buckets ∧
      List.Forall₂ (fun item bucket => item = .obj bucket.fields ∧
        item.get? "doc_count" = some (Json.ofNat bucket.count)) items buckets ∧
      ∀ item ∈ items, ∀ key inner, child? key target = some inner →
        ∃ part, item.get? key = some part ∧ wellShaped inner part = true := by
  obtain ⟨part, hpart, hshaped⟩ := exists_part_of_target? hshaped htarget
  obtain ⟨items, hitems, hbuckets⟩ := exists_items_of_wellShaped hshaped hkind
  obtain ⟨buckets, hread, hforall⟩ : ∃ buckets, items.mapM Bucket.ofJson? = some buckets ∧
      List.Forall₂ (fun item bucket => item = .obj bucket.fields ∧
        item.get? "doc_count" = some (Json.ofNat bucket.count)) items buckets := by
    clear hitems
    induction items with
    | nil => exact ⟨[], rfl, .nil⟩
    | cons item rest ih =>
        obtain ⟨hitem, hrest⟩ := List.forall_mem_cons.mp hbuckets
        obtain ⟨bucket, hbucket, hfields⟩ := exists_bucket_of_isBucket hitem.1
        obtain ⟨buckets, hread, hforall⟩ := ih hrest
        exact ⟨bucket :: buckets, by simp [hbucket, hread], .cons hfields hforall⟩
  refine ⟨items, buckets, ?_, ?_, hforall, fun item hitem => (hbuckets item hitem).2⟩
  · rw [at?_append, hpart]
    simpa [at?] using hitems
  · have hparts : buckets? part = some buckets := by
      cases part with
      | obj fields =>
          rw [get?] at hitems
          simp [buckets?, bucketItems?, hitems, list?, hread]
      | _ => cases hitems
    rw [readBuckets_eq hpart, hparts, orMissing]

theorem readBuckets_of_metBy {fragment node : Json} (hshaped : wellShaped fragment node = true)
    {path : List String} (hmet : (Need.buckets path).metBy fragment = true) :
    ∃ buckets, readBuckets node path = .ok buckets := by
  rw [Need.metBy, Option.any_eq_true] at hmet
  obtain ⟨target, htarget, hkind⟩ := hmet
  obtain ⟨_, buckets, -, hread, -⟩ :=
    readBuckets_of_target? hshaped htarget (by simpa using hkind)
  exact ⟨buckets, hread⟩

/-! ## Top lists -/

/-- The groups of a top list are read in the order of the buckets. -/
theorem readGroups_of_hits {items : List Json} {buckets : List Bucket}
    (hbuckets : List.Forall₂ (fun item bucket => item = .obj bucket.fields ∧
      item.get? "doc_count" = some (Json.ofNat bucket.count)) items buckets)
    (hhits : ∀ item ∈ items, ∃ part, item.get? "hits" = some part ∧ holdsHits part = true) :
    ∃ groups, readGroups buckets = .ok groups ∧ List.Forall₂ IsGroupOf items groups := by
  induction hbuckets with
  | nil => exact ⟨[], rfl, .nil⟩
  | @cons item bucket items buckets hbucket _ ih =>
      obtain ⟨⟨part, hpart, hholds⟩, hrest⟩ := List.forall_mem_cons.mp hhits
      obtain ⟨rfl, hcount⟩ := hbucket
      obtain ⟨groups, hgroups, hforall⟩ := ih hrest
      unfold holdsHits at hholds
      split at hholds
      next hits hat =>
        cases hits with
        | nil => simp at hholds
        | cons first rest =>
            simp only [List.all_cons, Bool.and_eq_true, Option.isSome_iff_exists] at hholds
            obtain ⟨-, ⟨document, hdocument⟩, -⟩ := hholds
            have hpath : (Json.obj bucket.fields).at? ["hits", "hits", "hits"] =
                some (.arr (first :: rest)) := by
              rw [at?, hpart, Option.bind_some, hat]
            have hfirst : firstDocument? bucket = some document := by
              simp [firstDocument?, hpath, firstHit?, hdocument]
            refine ⟨⟨bucket.count, document⟩ :: groups, ?_,
              .cons ⟨hcount, first, rest, hpath, hdocument⟩ hforall⟩
            rw [readGroups, hfirst, hgroups]
            rfl
      next => cases hholds

theorem readTop_of_metBy {fragment root : Json} (hshaped : wellShaped fragment root = true)
    {path : List String} (hmet : (Need.groups path).metBy fragment = true) {id : String}
    {answer : Json} {count : Nat} (hcount : readCount answer [id] = .ok count) :
    ∃ items groups, root.at? (path ++ ["buckets"]) = some (.arr items) ∧
      readTop id path answer root = .ok (.top count groups) ∧
      List.Forall₂ IsGroupOf items groups := by
  rw [Need.metBy, Option.any_eq_true] at hmet
  obtain ⟨target, htarget, hkinds⟩ := hmet
  rw [Bool.and_eq_true, Option.any_eq_true] at hkinds
  obtain ⟨hkind, hits, hchild, hhits⟩ := hkinds
  obtain ⟨items, buckets, hitems, hread, hbuckets, hparts⟩ :=
    readBuckets_of_target? hshaped htarget (by simpa using hkind)
  obtain ⟨groups, hgroups, hforall⟩ := readGroups_of_hits hbuckets fun item hitem => by
    obtain ⟨part, hpart, hshaped⟩ := hparts item hitem "hits" hits hchild
    exact ⟨part, hpart, holdsHits_of_wellShaped hshaped (by simpa using hhits)⟩
  refine ⟨items, groups, hitems, ?_, hforall⟩
  rw [readTop, hcount, hread]
  simp only [bind, Except.bind, hgroups]
  rfl

/-! ## Entries -/

/-- A fragment suits an entry if everything that the entry reads is asked for. -/
structure Suits (entry : Entry) (fragment : Json) : Prop where
  needs : ∀ need ∈ entry.needs, need.metBy (rootFragment entry.id fragment) = true
  /-- A filter layer is below a layer. -/
  root : ∀ layer, child? (entry.id ++ "_filter") fragment = some layer →
    answerKind? fragment = some .layer
  /-- Top lists have a count of their own. -/
  whole : ∀ path, .groups path ∈ entry.needs → answerKind? fragment = some .layer

/-- An entry's answer is read from an answer to the root of the fragment. -/
theorem exists_root_of_answered {entry : Entry} {fragment answer : Json}
    (hsuits : Suits entry fragment) (hanswered : answered fragment entry.id answer = true) :
    ∃ root, answerRoot? answer entry.id = some root ∧
      wellShaped (rootFragment entry.id fragment) root = true := by
  rw [answered, Option.any_eq_true] at hanswered
  obtain ⟨part, hpart, hshaped⟩ := hanswered
  simp only [Bool.and_eq_true, Bool.or_eq_true, Option.isNone_iff_eq_none] at hshaped
  obtain ⟨hshaped, hstray⟩ := hshaped
  rw [answerRoot?, hpart, rootFragment, Option.map_some]
  cases hlayer : child? (entry.id ++ "_filter") fragment with
  | none =>
      rw [hlayer] at hstray
      have hnone : part.get? (entry.id ++ "_filter") = none := by simpa using hstray
      exact ⟨part, by rw [hnone]; rfl, hshaped⟩
  | some layer =>
      obtain ⟨root, hroot, hshaped⟩ :=
        exists_part_of_layer hshaped (hsuits.root layer hlayer) hlayer
      exact ⟨root, by rw [hroot]; rfl, hshaped⟩

theorem readCount_of_answered {id : String} {fragment answer : Json}
    (hanswered : answered fragment id answer = true)
    (hkind : answerKind? fragment = some .layer) : ∃ count, readCount answer [id] = .ok count := by
  rw [answered, Option.any_eq_true] at hanswered
  obtain ⟨part, hpart, hshaped⟩ := hanswered
  rw [Bool.and_eq_true] at hshaped
  obtain ⟨count, hcount⟩ := exists_count_of_wellShaped hshaped.1 hkind
  have hat : answer.at? [id] = some part := by
    rw [at?, hpart]
    rfl
  exact ⟨count, by rw [readCount_eq hat, hcount, orMissing]⟩

/-- What is read for an entry from an answer and its root. The groups of a top
list are those of the bucket list it reads. -/
structure IsRead (context : Context) (answer root : Json) (entry : Entry) (summary : Summary) :
    Prop where
  read : entry.readRoot context answer root = .ok summary
  groups : ∀ path, .groups path ∈ entry.needs → ∃ items count groups,
    root.at? (path ++ ["buckets"]) = some (.arr items) ∧ summary = .top count groups ∧
      List.Forall₂ IsGroupOf items groups

section Families

variable {context : Context} {answer root : Json} {entry : Entry}

/-- An entry that reads a list of buckets and goes on with them. -/
theorem isRead_of_buckets {path : List String} {summary : List Bucket → Summary}
    (hread : ∃ buckets, readBuckets root path = .ok buckets)
    (hentry : entry.readRoot context answer root =
      (do let buckets ← readBuckets root path; return summary buckets))
    (hnone : ∀ path, .groups path ∉ entry.needs) :
    ∃ summary, IsRead context answer root entry summary := by
  obtain ⟨buckets, hread⟩ := hread
  refine ⟨summary buckets, ?_, fun path hpath => absurd hpath (hnone path)⟩
  rw [hentry, hread]
  rfl

theorem isRead_of_top {fragment : Json} {path : List String}
    (hsuits : Suits entry fragment) (hanswered : answered fragment entry.id answer = true)
    (hshaped : wellShaped (rootFragment entry.id fragment) root = true)
    (hentry : entry.readRoot context answer root = readTop entry.id path answer root)
    (hneeds : entry.needs = [.groups path]) :
    ∃ summary, IsRead context answer root entry summary := by
  have hpath : .groups path ∈ entry.needs := by simp [hneeds]
  obtain ⟨count, hcount⟩ := readCount_of_answered hanswered (hsuits.whole path hpath)
  obtain ⟨items, groups, hitems, hread, hforall⟩ :=
    readTop_of_metBy hshaped (hsuits.needs _ hpath) hcount
  refine ⟨.top count groups, hentry.trans hread, fun other hother => ?_⟩
  obtain rfl : other = path := by simpa [hneeds] using hother
  exact ⟨items, count, groups, hitems, rfl, hforall⟩

theorem isRead_of_totals {fragment : Json} (hsuits : Suits .lotBidTotals fragment)
    (hshaped : wellShaped (rootFragment Entry.lotBidTotals.id fragment) root = true) :
    ∃ summary, IsRead context answer root .lotBidTotals summary := by
  have hcounts : ∀ path, .count path ∈ Entry.lotBidTotals.needs →
      ∃ count, readCount root path = .ok count := fun path hpath =>
    readCount_of_metBy hshaped (hsuits.needs _ hpath)
  obtain ⟨bids, hbids⟩ := hcounts ["lotsbids"] (by simp [Entry.needs])
  obtain ⟨awardedBids, hawarded⟩ :=
    hcounts ["lotsbids", "lotsbids_nested_filter", "lotsbids_nested"] (by simp [Entry.needs])
  obtain ⟨lots, hlots⟩ := hcounts [] (by simp [Entry.needs])
  refine ⟨.totals { bids, awardedBids, lots, tenders := context.tenders }, ?_,
    fun path hpath => by simp [Entry.needs] at hpath⟩
  rw [Entry.readRoot, readTotals, hbids, hawarded, hlots]
  rfl

end Families

theorem isRead_of_suits (context : Context) {entry : Entry} {fragment answer root : Json}
    (hsuits : Suits entry fragment) (hanswered : answered fragment entry.id answer = true)
    (hshaped : wellShaped (rootFragment entry.id fragment) root = true) :
    ∃ summary, IsRead context answer root entry summary := by
  have hbuckets : ∀ path, .buckets path ∈ entry.needs →
      ∃ buckets, readBuckets root path = .ok buckets := fun path hpath =>
    readBuckets_of_metBy hshaped (hsuits.needs _ hpath)
  cases entry with
  | topAuthorities | topCompanies | topWinningCompanies =>
      exact isRead_of_top hsuits hanswered hshaped rfl rfl
  | lotBidTotals => exact isRead_of_totals hsuits hshaped
  | _ => exact isRead_of_buckets (hbuckets _ List.mem_cons_self) rfl (by simp [Entry.needs])

/-! ## Selections -/

theorem summary?_eq_some_iff {context : Context} {answer : Json} {entry : Entry} {id : String}
    {summary : Summary} : Selection.summary? context answer entry = some (id, summary) ↔
      entry.id = id ∧ entry.read context answer = .ok summary := by
  rw [Selection.summary?]
  split
  next read hread => simp [hread]
  next path hread => simp [hread]

section Tables

variable {context : Context} {answer : Json} {selection : Selection}

/-- Each selected entry that can be read is found under its id. -/
theorem get?_summaries {entry : Entry} (hentry : entry ∈ selection) {summary : Summary}
    (hread : entry.read context answer = .ok summary) :
    Table.get? entry.id (Table.extend []
      (selection.filterMap (Selection.summary? context answer))) = some summary := by
  refine Table.get?_extend_of_mem
    (List.mem_filterMap.mpr ⟨entry, hentry, summary?_eq_some_iff.mpr ⟨rfl, hread⟩⟩)
    fun other hother => ?_
  -- ids tell entries apart
  obtain ⟨another, -, hsummary⟩ := List.mem_filterMap.mp hother
  obtain ⟨hid, hagain⟩ := summary?_eq_some_iff.mp hsummary
  rw [Entry.id_inj hid, hread] at hagain
  exact (Except.ok.inj hagain).symm

theorem has_summaries_iff {id : String} :
    Table.has id (Table.extend [] (selection.filterMap (Selection.summary? context answer))) =
        true ↔
      ∃ entry ∈ selection, entry.id = id ∧
        ∃ summary, entry.read context answer = .ok summary := by
  constructor
  · intro hhas
    obtain ⟨summary, hget⟩ := Option.isSome_iff_exists.mp hhas
    have hmem := (Table.mem_or_mem_of_mem_extend (Table.mem_of_get? hget)).resolve_left
      List.not_mem_nil
    obtain ⟨entry, hentry, hsummary⟩ := List.mem_filterMap.mp hmem
    obtain ⟨hid, hread⟩ := summary?_eq_some_iff.mp hsummary
    exact ⟨entry, hentry, hid, summary, hread⟩
  · rintro ⟨entry, hentry, rfl, summary, hread⟩
    rw [Table.has, get?_summaries hentry hread]
    rfl

end Tables

theorem exists_read_of_suits (context : Context) {entry : Entry} {fragment answer : Json}
    (hsuits : Suits entry fragment) (hanswered : answered fragment entry.id answer = true) :
    ∃ root summary, answerRoot? answer entry.id = some root ∧
      IsRead context answer root entry summary ∧ entry.read context answer = .ok summary := by
  obtain ⟨root, hroot, hshaped⟩ := exists_root_of_answered hsuits hanswered
  obtain ⟨summary, hsummary⟩ := isRead_of_suits context hsuits hanswered hshaped
  refine ⟨root, summary, hroot, hsummary, ?_⟩
  rw [Entry.read, hroot]
  exact hsummary.read

/-- Strict work reads an answer if it answers every selected entry by a fragment
that suits the entry. There is one summary for each of them. -/
theorem exists_table_of_suits (context : Context) {selection : Selection} {answer : Json}
    (hentries : ∀ entry ∈ selection, ∃ fragment, Suits entry fragment ∧
      answered fragment entry.id answer = true) :
    ∃ table, (∀ earlier, runIn .strict earlier (selection.read context answer) =
        (.ok table, earlier)) ∧
      (∀ id, Table.has id table = true ↔ id ∈ selection.ids) ∧
      ∀ entry ∈ selection, ∃ root summary, answerRoot? answer entry.id = some root ∧
        IsRead context answer root entry summary ∧ Table.get? entry.id table = some summary := by
  have hread : ∀ entry ∈ selection, ∃ root summary, answerRoot? answer entry.id = some root ∧
      IsRead context answer root entry summary ∧
      entry.read context answer = .ok summary := fun entry hentry => by
    obtain ⟨fragment, hsuits, hanswered⟩ := hentries entry hentry
    exact exists_read_of_suits context hsuits hanswered
  have hmalformed : selection.filterMap (Selection.malformed? context answer) = [] := by
    refine List.filterMap_eq_nil_iff.mpr fun entry hentry => ?_
    obtain ⟨_, summary, -, -, hok⟩ := hread entry hentry
    rw [Selection.malformed?, hok]
  have hyields := Selection.yields_readAfter context answer [] selection
  rw [hmalformed] at hyields
  refine ⟨_, hyields.strict, fun id => ?_, fun entry hentry => ?_⟩
  · rw [has_summaries_iff, Selection.ids, List.mem_map]
    refine exists_congr fun entry => and_congr_right fun hentry => and_iff_left ?_
    obtain ⟨_, summary, -, -, hok⟩ := hread entry hentry
    exact ⟨summary, hok⟩
  · obtain ⟨root, summary, hroot, hsummary, hok⟩ := hread entry hentry
    exact ⟨root, summary, hroot, hsummary, get?_summaries hentry hok⟩

end TenderSearch.Catalog
