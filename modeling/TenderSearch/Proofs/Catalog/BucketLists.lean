import TenderSearch.Proofs.Catalog.Reading

/-!
# Lists of buckets

All entries of the catalog but one read a list of buckets from one place below
the root of their answer. Nine of them turn it into a summary and read nothing
else, so they can be read exactly if the list is there.
-/

namespace TenderSearch.Catalog

open Json

/-! ## Readings that succeed -/

theorem at?_singleton (key : String) (value : Json) : value.at? [key] = value.get? key := by
  rw [at?]
  cases value.get? key <;> rfl

theorem orMissing_eq_ok_iff {α : Type} {path : String} {value? : Option α} {value : α} :
    orMissing path value? = .ok value ↔ value? = some value := by
  cases value? <;> simp [orMissing]

theorem bind_eq_ok_iff {α β : Type} {reading : Reading α} {next : α → Reading β} {value : β} :
    reading >>= next = .ok value ↔ ∃ first, reading = .ok first ∧ next first = .ok value := by
  cases reading <;> simp [bind, Except.bind]

theorem readCount_eq_ok_iff {node : Json} {path : List String} {count : Nat} :
    readCount node path = .ok count ↔ ∃ part, node.at? path = some part ∧
      (part.get? "doc_count").bind (natOfBits? 64) = some count := by
  simp only [readCount, descend, bind_eq_ok_iff, orMissing_eq_ok_iff]

theorem readBuckets_eq_ok_iff {node : Json} {path : List String} {buckets : List Bucket} :
    readBuckets node path = .ok buckets ↔ (node.at? path).bind buckets? = some buckets := by
  simp only [readBuckets, descend, bind_eq_ok_iff, orMissing_eq_ok_iff, Option.bind_eq_some_iff]

theorem Entry.read_eq_ok_iff {context : Context} {answer : Json} {entry : Entry}
    {summary : Summary} :
    entry.read context answer = .ok summary ↔ ∃ root, answerRoot? answer entry.id = some root ∧
      entry.readRoot context answer root = .ok summary := by
  simp only [Entry.read, bind_eq_ok_iff, orMissing_eq_ok_iff]

/-! ## The list of an entry -/

def Need.listPath? : Need → Option (List String)
  | .count _ => none
  | .buckets path => some path
  | .groups path => some path

/-- Where an entry reads a list of buckets, below the root of its answer. -/
def Entry.listPath? (entry : Entry) : Option (List String) :=
  entry.needs.findSome? Need.listPath?

/-- The items of the list that an answer holds for an entry. -/
def Entry.items? (answer : Json) (entry : Entry) : Option (List Json) := do
  let path ← entry.listPath?
  let root ← answerRoot? answer entry.id
  bucketItems? (← root.at? path)

def Entry.buckets? (answer : Json) (entry : Entry) : Option (List Bucket) := do
  (← entry.items? answer).mapM Bucket.ofJson?

theorem Entry.buckets?_eq {answer : Json} {entry : Entry} {path : List String}
    (hpath : entry.listPath? = some path) :
    entry.buckets? answer =
      (answerRoot? answer entry.id).bind fun root => (root.at? path).bind Catalog.buckets? := by
  simp only [Entry.buckets?, Entry.items?, hpath, Option.bind_eq_bind, Option.bind_some,
    Option.bind_assoc]
  rfl

/-- An entry that reads a list of buckets and only goes on with them. -/
theorem Entry.read_eq_ok_iff_of_list {context : Context} {answer : Json} {entry : Entry}
    {path : List String} {summarize : List Bucket → Summary}
    (hpath : entry.listPath? = some path)
    (hentry : ∀ root, entry.readRoot context answer root =
      (do let buckets ← readBuckets root path; return summarize buckets)) {summary : Summary} :
    entry.read context answer = .ok summary ↔
      ∃ buckets, entry.buckets? answer = some buckets ∧ summarize buckets = summary := by
  simp only [Entry.read_eq_ok_iff, hentry, bind_eq_ok_iff, readBuckets_eq_ok_iff,
    Entry.buckets?_eq hpath, Option.bind_eq_some_iff]
  constructor
  · rintro ⟨root, hroot, buckets, hbuckets, hsummary⟩
    exact ⟨buckets, ⟨root, hroot, hbuckets⟩, Except.ok.inj hsummary⟩
  · rintro ⟨buckets, ⟨root, hroot, hbuckets⟩, rfl⟩
    exact ⟨root, hroot, buckets, hbuckets, rfl⟩

/-! ## Top lists -/

def Entry.isTopList : Entry → Bool
  | .topAuthorities | .topCompanies | .topWinningCompanies => true
  | _ => false

theorem Entry.readRoot_of_isTopList {entry : Entry} (htop : entry.isTopList = true) :
    ∃ path, entry.needs = [.groups path] ∧ ∀ context answer root,
      entry.readRoot context answer root = readTop entry.id path answer root := by
  cases entry with
  | topAuthorities | topCompanies | topWinningCompanies => exact ⟨_, rfl, fun _ _ _ => rfl⟩
  | _ => cases htop

/-- All others read the root of their answer and nothing else. -/
theorem Entry.readRoot_congr {entry : Entry} (htop : entry.isTopList = false)
    (context : Context) (answer other root : Json) :
    entry.readRoot context answer root = entry.readRoot context other root := by
  cases entry with
  | topAuthorities | topCompanies | topWinningCompanies => cases htop
  | _ => rfl

/-- The count of a top list is read apart from its groups. -/
theorem readTop_eq_map {id : String} {answer : Json} {count : Nat}
    (hcount : readCount answer [id] = .ok count) (path : List String) (root : Json) :
    readTop id path answer root =
      (readBuckets root path >>= readGroups).map (Summary.top count) := by
  rw [readTop, hcount]
  cases readBuckets root path with
  | error missing => rfl
  | ok buckets => cases readGroups buckets <;> rfl

/-! ## Counts of a summary -/

/-- The numbers of documents in a summary, apart from the tenders, which are not
read from an answer. -/
def Summary.documentCounts : Summary → List Nat
  | .top count groups => count :: groups.map TopGroup.count
  | .totals counters => [counters.bids, counters.awardedBids, counters.lots]
  | .named table => table.map fun entry => entry.2.count
  | .amounts _ => []
  | .counts table => table.map Prod.snd
  | .yearly table => table.map Prod.snd

end TenderSearch.Catalog
