import TenderSearch.Catalog.Basic
import TenderSearch.Catalog.Summary
import TenderSearch.Json.Printer
import TenderSearch.Text.Blank
import TenderSearch.Text.LowerCase

/-!
# Reading answers

The engine answers a named aggregation with an object of counts, layers and
bucket lists. Each entry of the catalog reads its part of the answer into a
summary, or says which path is missing. A filter layer that injection has put
between an entry and its children is looked through.
-/

namespace TenderSearch.Catalog

/-- Reading fails with the path that is missing. -/
abbrev Reading := Except String

/-- What readers need besides the answer. -/
structure Context where
  /-- The display name of a code in a language. -/
  names : String → String → Option String
  language : String
  tenders : Nat
  firstYear : Int
  lastYear : Int

structure Bucket where
  key : Json
  keyText : Option String
  count : Nat
  fields : Json.Fields

/-- The key as text: a string itself, any other value as JSON text. -/
def Bucket.name (bucket : Bucket) : String :=
  match bucket.key with
  | .str s => s
  | key => key.render

/-- A text that may be missing or null. -/
def optionalText? : Option Json → Option (Option String)
  | none => some none
  | some .null => some none
  | some (.str s) => some (some s)
  | some _ => none

/-- A bucket is an object with a key, a count and perhaps the key's text. -/
def Bucket.ofJson? : Json → Option Bucket
  | .obj fields => do
      let key ← Table.get? "key" fields
      let count ← (Table.get? "doc_count" fields).bind (Json.natOfBits? 64)
      let keyText ← optionalText? (Table.get? "key_as_string" fields)
      return { key, keyText, count, fields }
  | _ => none

/-- The list of buckets that a value holds: an object by its field, an array
as its only item. -/
def bucketItems? : Json → Option (List Json)
  | .obj fields => (Table.get? "buckets" fields).bind Json.list?
  | .arr [item] => item.list?
  | _ => none

def buckets? (value : Json) : Option (List Bucket) :=
  (bucketItems? value).bind fun items => items.mapM Bucket.ofJson?

/-- The part of an answer under an id, below the filter layer if there is
one. -/
def answerRoot? (answer : Json) (id : String) : Option Json :=
  (answer.get? id).map fun node => (node.get? (id ++ "_filter")).getD node

def pathText (path : List String) : String :=
  String.intercalate "." path

def orMissing {α : Type} (path : String) : Option α → Reading α
  | some value => .ok value
  | none => .error path

def descend (node : Json) (path : List String) : Reading Json :=
  orMissing (pathText path) (node.at? path)

def readBuckets (node : Json) (path : List String) : Reading (List Bucket) := do
  let target ← descend node path
  orMissing (pathText path ++ ".buckets") (buckets? target)

def readCount (node : Json) (path : List String) : Reading Nat := do
  let target ← descend node path
  orMissing (pathText path ++ ".doc_count")
    ((target.get? "doc_count").bind (Json.natOfBits? 64))

/-! ## Readers -/

/-- The first of the hits: the first item of an array, or the field `0` of an
object. -/
def firstHit? : Json → Option Json
  | .arr items => items.head?
  | hits => hits.get? "0"

def firstDocument? (bucket : Bucket) : Option Json := do
  let hits ← (Json.obj bucket.fields).at? ["hits", "hits", "hits"]
  (← firstHit? hits).get? "_source"

def readGroups : List Bucket → Reading (List TopGroup)
  | [] => .ok []
  | bucket :: rest => do
      let document ← orMissing "hits.hits.hits[0]._source" (firstDocument? bucket)
      return { count := bucket.count, document } :: (← readGroups rest)

/-- A top list counts the documents above the filter layer. -/
def readTop (id : String) (path : List String) (answer root : Json) : Reading Summary := do
  let count ← readCount answer [id]
  let buckets ← readBuckets root path
  return .top count (← readGroups buckets)

/-- The sum in a bucket; zero where there is none. -/
def Bucket.sum (bucket : Bucket) : Binary64 :=
  match (Json.obj bucket.fields).at? ["sum_price", "value"] with
  | some (.num n) => n.toBinary64?.getD Binary64.zero
  | _ => Binary64.zero

def readSums (root : Json) : Reading Summary := do
  let buckets ← readBuckets root []
  return .amounts (Table.ofList (buckets.map fun bucket => (bucket.name, bucket.sum)))

def readCounts (key : Bucket → String) (root : Json) : Reading Summary := do
  let buckets ← readBuckets root []
  return .counts (Table.ofList (buckets.map fun bucket => (key bucket, bucket.count)))

/-- Counts under codes, with the names of the codes. -/
def readNamed (context : Context) (path : List String) (root : Json) : Reading Summary := do
  let buckets ← readBuckets root path
  return .named (Table.ofList (buckets.map fun bucket =>
    (bucket.name, { name := context.names bucket.name context.language, count := bucket.count })))

/-- The region of a key: what stands before the first hyphen. -/
def regionOf (key : String) : String :=
  String.ofList (Text.trim (key.toList.takeWhile (· ≠ '-')))

/-- Counts under regions. Buckets are taken in the order of their keys, and a
later bucket of a region replaces an earlier one. -/
def readRegions (path : List String) (root : Json) : Reading Summary := do
  let buckets ← readBuckets root path
  let sorted := buckets.mergeSort fun a b => !decide (b.name < a.name)
  return .counts (Table.ofList (sorted.map fun bucket => (regionOf bucket.name, bucket.count)))

/-- The first characters of a text that take exactly so many bytes. -/
def takeBytes? : Nat → List Char → Option (List Char)
  | 0, _ => some []
  | _ + 1, [] => none
  | n + 1, c :: rest =>
      if c.utf8Size ≤ n + 1 then (takeBytes? (n + 1 - c.utf8Size) rest).map (c :: ·) else none

/-- The year that the first four bytes of a bucket's key text spell. -/
def Bucket.year? (bucket : Bucket) : Option Int := do
  let text ← bucket.keyText
  Text.int32? (← takeBytes? 4 text.toList)

/-- The count of a bucket under its year, if that is a valid one. -/
def yearCount? (context : Context) (bucket : Bucket) : Option (Int × Nat) := do
  let year ← bucket.year?
  if context.firstYear ≤ year ∧ year ≤ context.lastYear then some (year, bucket.count) else none

def readYears (context : Context) (root : Json) : Reading Summary := do
  let buckets ← readBuckets root ["dates_nested"]
  return .yearly (Table.ofList (buckets.filterMap (yearCount? context)))

def readTotals (context : Context) (root : Json) : Reading Summary := do
  let bids ← readCount root ["lotsbids"]
  let awardedBids ← readCount root ["lotsbids", "lotsbids_nested_filter", "lotsbids_nested"]
  let lots ← readCount root []
  return .totals { bids, awardedBids, lots, tenders := context.tenders }

/-- Reads the root of an entry's answer; top lists also look at the answer as
a whole. -/
def Entry.readRoot (context : Context) (answer root : Json) : Entry → Reading Summary
  | .topAuthorities => readTop Entry.topAuthorities.id ["authorities_nested"] answer root
  | .topCompanies => readTop Entry.topCompanies.id ["companies_nested"] answer root
  | .topWinningCompanies =>
      readTop Entry.topWinningCompanies.id
        ["top_winning_companies_nested_filter", "companies", "companies_nested"] answer root
  | .finalPriceSums => readSums root
  | .mainDivisions => readNamed context ["cpvs_filter", "divisionscpvs"] root
  | .countries => readCounts (fun bucket => Text.lowerCase bucket.name) root
  | .mainClassifications => readNamed context ["cpvs_filter", "cpvs_full"] root
  | .indicators => readCounts Bucket.name root
  | .companyRegions => readRegions ["company_nuts_nested"] root
  | .authorityRegions => readRegions ["authority_nuts_nested"] root
  | .awardYears => readYears context root
  | .awardYearsReversed => readYears context root
  | .lotBidTotals => readTotals context root

def Entry.read (context : Context) (answer : Json) (entry : Entry) : Reading Summary := do
  let root ← orMissing entry.id (answerRoot? answer entry.id)
  entry.readRoot context answer root

end TenderSearch.Catalog
