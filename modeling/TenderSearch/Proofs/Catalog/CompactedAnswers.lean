import TenderSearch.Proofs.Catalog.Sources
import TenderSearch.Proofs.Tree.KeptFields

/-!
# Reading compacted answers

Entries read fixed paths of an answer, and some of these lead through layers. Compacting
takes layers away, so it changes nothing for an entry only where it does nothing to the
fields on its paths. An entry with a layer on its path is not read from a compacted
answer, unless its list of buckets is an array there.
-/

namespace TenderSearch.Catalog

open Json Report TenderSearch.Tree

/-! ## What entries look up -/

/-- The path of a need, with the field that is read at its end. -/
def Need.lookup : Need → List String
  | .count path => path ++ ["doc_count"]
  | .buckets path => path ++ ["buckets"]
  | .groups path => path ++ ["buckets"]

/-- Compacting does nothing to the parts of an answer that an entry reads. -/
structure Entry.KeptIn (entry : Entry) (answer : Json) : Prop where
  /-- The way to the root, also where there is no filter layer on it -/
  root : PathKept [entry.id, entry.id ++ "_filter"] answer
  whole : entry.isTopList = true → PathKept [entry.id, "doc_count"] answer
  needs : ∀ root, answerRoot? answer entry.id = some root →
    ∀ need ∈ entry.needs, PathKept need.lookup root
  /-- A list in array form is compacted item by item -/
  arrays : ∀ root, answerRoot? answer entry.id = some root → ∀ need ∈ entry.needs,
    ∀ items, root.at? need.path = some (.arr items) → IsFlat (.arr items)

theorem Entry.buckets_not_mem_path (entry : Entry) :
    ∀ need ∈ entry.needs, "buckets" ∉ need.path := by
  cases entry <;> decide

/-- The entries with layers on their paths are all but five. -/
theorem Entry.exists_layer_on_path_iff (entry : Entry) :
    (∃ need ∈ entry.needs, need.path.any isSynthetic = true) ↔
      entry ∉ [.finalPriceSums, .mainDivisions, .countries, .mainClassifications, .indicators] := by
  cases entry <;> decide

theorem Entry.id_ne_buckets (entry : Entry) :
    entry.id ≠ "buckets" ∧ entry.id ++ "_filter" ≠ "buckets" := by
  cases entry <;> decide

/-! ## Counts and buckets -/

theorem natOfBits?_compact (bits : Nat) (value : Json) :
    natOfBits? bits (compact value) = natOfBits? bits value := by
  cases value <;> rfl

theorem readCount_compact {root : Json} (hroot : root.WellFormed) {path : List String}
    (hkept : PathKept (path ++ ["doc_count"]) root) (hbuckets : "buckets" ∉ path) :
    readCount (compact root) path = readCount root path := by
  obtain ⟨hpath, htarget⟩ := pathKept_append.mp hkept
  have hat := at?_compact hroot hpath hbuckets
  cases hpart : root.at? path with
  | none =>
      rw [hpart] at hat
      rw [readCount, readCount, descend, descend, hat, hpart]
      rfl
  | some part =>
      rw [hpart] at hat
      have hcount := get?_compact_of_outsideBuckets (hroot.of_at? hpart) (htarget part hpart).1
        (by decide)
      have hbits : natOfBits? 64 ∘ compact = natOfBits? 64 := funext (natOfBits?_compact 64)
      rw [readCount_eq hat, readCount_eq hpart, hcount, Option.bind_map, hbits]

theorem buckets?_compact {part : Json} (hpart : part.WellFormed)
    (hkept : FieldKept "buckets" part) (harray : ∀ items, part = .arr items → IsFlat part) :
    buckets? (compact part) = buckets? part := by
  cases part with
  | arr items => rw [compact_eq_self (harray items rfl)]
  | obj fields =>
      have hlist : (compact (.obj fields)).get? "buckets" = (Json.obj fields).get? "buckets" := by
        rw [get?_compact hpart hkept]
        cases (Json.obj fields).get? "buckets" <;> rfl
      have hitems : bucketItems? (compact (.obj fields)) = bucketItems? (.obj fields) :=
        congrArg (Option.bind · Json.list?) hlist
      rw [buckets?, buckets?, hitems]
  | _ => rfl

theorem readBuckets_compact {root : Json} (hroot : root.WellFormed) {path : List String}
    (hkept : PathKept (path ++ ["buckets"]) root) (hbuckets : "buckets" ∉ path)
    (harrays : ∀ items, root.at? path = some (.arr items) → IsFlat (.arr items)) :
    readBuckets (compact root) path = readBuckets root path := by
  obtain ⟨hpath, htarget⟩ := pathKept_append.mp hkept
  have hat := at?_compact hroot hpath hbuckets
  cases hpart : root.at? path with
  | none =>
      rw [hpart] at hat
      rw [readBuckets, readBuckets, descend, descend, hat, hpart]
      rfl
  | some part =>
      rw [hpart] at hat
      have hlist := buckets?_compact (hroot.of_at? hpart) (htarget part hpart).1 (by
        rintro items rfl
        exact harrays items hpart)
      rw [readBuckets_eq hat, readBuckets_eq hpart, hlist]

/-! ## Entries -/

/-- Two roots from which a need is read alike. -/
def Need.ReadAlike (root other : Json) : Need → Prop
  | .count path => readCount root path = readCount other path
  | .buckets path => readBuckets root path = readBuckets other path
  | .groups path => readBuckets root path = readBuckets other path

/-- An entry depends on what it needs, and a top list on its own count. -/
theorem Entry.readRoot_eq_of_needs (context : Context) {entry : Entry}
    {answer other root otherRoot : Json}
    (hwhole : entry.isTopList = true → readCount answer [entry.id] = readCount other [entry.id])
    (hneeds : ∀ need ∈ entry.needs, need.ReadAlike root otherRoot) :
    entry.readRoot context answer root = entry.readRoot context other otherRoot := by
  cases entry with
  | topAuthorities | topCompanies | topWinningCompanies =>
      have hcount := hwhole rfl
      have hgroups := hneeds _ List.mem_cons_self
      simp only [Need.ReadAlike] at hgroups
      simp only [Entry.readRoot, readTop, hcount, hgroups]
  | lotBidTotals =>
      simp only [Entry.needs, List.forall_mem_cons, Need.ReadAlike] at hneeds
      obtain ⟨hbids, hawarded, hlots, -⟩ := hneeds
      simp only [Entry.readRoot, readTotals, hbids, hawarded, hlots]
  | _ =>
      have hbuckets := hneeds _ List.mem_cons_self
      simp only [Need.ReadAlike] at hbuckets
      simp only [Entry.readRoot, readSums, readNamed, readCounts, readRegions, readYears, hbuckets]

theorem answerRoot?_compact {entry : Entry} {answer : Json} (hanswer : answer.WellFormed)
    (hkept : PathKept [entry.id, entry.id ++ "_filter"] answer) :
    answerRoot? (compact answer) entry.id = (answerRoot? answer entry.id).map compact := by
  obtain ⟨hid, hfilter⟩ := entry.id_ne_buckets
  rw [answerRoot?, answerRoot?, get?_compact_of_outsideBuckets hanswer hkept.1 hid]
  cases hnode : answer.get? entry.id with
  | none => rfl
  | some node =>
      have hlayer := get?_compact_of_outsideBuckets (hanswer.of_get? hnode)
        (hkept.2 node hnode).1 hfilter
      rw [Option.map_some, Option.map_some, Option.map_some, hlayer]
      cases node.get? (entry.id ++ "_filter") <;> rfl

theorem wellFormed_of_answerRoot? {answer root : Json} {id : String} (hanswer : answer.WellFormed)
    (hroot : answerRoot? answer id = some root) : root.WellFormed := by
  obtain ⟨node, hnode, rfl⟩ := Option.map_eq_some_iff.mp hroot
  have hform := hanswer.of_get? hnode
  cases hfilter : node.get? (id ++ "_filter") with
  | none => exact hform
  | some layer => exact hform.of_get? hfilter

theorem Entry.read_compact (context : Context) {entry : Entry} {answer : Json}
    (hanswer : answer.WellFormed) (hkept : entry.KeptIn answer) :
    entry.read context (compact answer) = entry.read context answer := by
  rw [Entry.read, Entry.read, answerRoot?_compact hanswer hkept.root]
  cases hroot : answerRoot? answer entry.id with
  | none => rfl
  | some root =>
      have hform := wellFormed_of_answerRoot? hanswer hroot
      apply Entry.readRoot_eq_of_needs
      · intro htop
        have hwhole : PathKept ([entry.id] ++ ["doc_count"]) answer := hkept.whole htop
        exact readCount_compact hanswer hwhole
          (mt List.mem_singleton.mp entry.id_ne_buckets.1.symm)
      · intro need hneed
        have hbuckets := entry.buckets_not_mem_path need hneed
        have hlookup := hkept.needs root hroot need hneed
        have harrays := hkept.arrays root hroot need hneed
        cases need with
        | count path => exact readCount_compact hform hlookup hbuckets
        | buckets path => exact readBuckets_compact hform hlookup hbuckets harrays
        | groups path => exact readBuckets_compact hform hlookup hbuckets harrays

/-! ## Entries with layers on their paths -/

theorem isFlat_of_answerRoot? {entry : Entry} {answer root : Json} (hanswer : IsFlat answer)
    (hroot : answerRoot? answer entry.id = some root) : IsFlat root := by
  obtain ⟨hid, hfilter⟩ := entry.id_ne_buckets
  obtain ⟨node, hnode, rfl⟩ := Option.map_eq_some_iff.mp hroot
  have hflat := hanswer.of_get? hnode hid
  cases hlayer : node.get? (entry.id ++ "_filter") with
  | none => exact hflat
  | some layer => exact hflat.of_get? hlayer hfilter

/-- Only a list of buckets in array form can be read where no object is. -/
theorem exists_array_of_heldBy {root : Json} {need : Need} (hheld : need.heldBy root = true)
    (hobject : ∀ part, root.at? need.path = some part → part.isObject = false) :
    ∃ items, root.at? need.path = some (.arr items) := by
  have hlist : ∀ path, (∀ part, root.at? path = some part → part.isObject = false) →
      ∀ items, (root.at? path).bind bucketItems? = some items →
        ∃ items, root.at? path = some (.arr items) := by
    intro path hobject items hitems
    obtain ⟨part, hpart, hitems⟩ := Option.bind_eq_some_iff.mp hitems
    have hpartObject := hobject part hpart
    cases part with
    | arr items => exact ⟨items, hpart⟩
    | obj fields => cases hpartObject
    | _ => cases hitems
  cases need with
  | count path =>
      obtain ⟨part, hpart, hcount⟩ := (Option.any_eq_true _ _).mp hheld
      have hpartObject := hobject part hpart
      cases part with
      | obj fields => cases hpartObject
      | _ => cases hcount
  | buckets path =>
      obtain ⟨items, hitems, -⟩ := (Option.any_eq_true _ _).mp hheld
      exact hlist path hobject items hitems
  | groups path =>
      obtain ⟨items, hitems, -⟩ := (Option.any_eq_true _ _).mp hheld
      exact hlist path hobject items hitems

theorem Entry.exists_array_of_read_compact {context : Context} {entry : Entry} {answer : Json}
    {summary : Summary} (hread : entry.read context (compact answer) = .ok summary) {need : Need}
    (hneed : need ∈ entry.needs) (hlayer : need.path.any isSynthetic = true) :
    ∃ root items, answerRoot? (compact answer) entry.id = some root ∧
      root.at? need.path = some (.arr items) := by
  have hheld : entry.heldBy (compact answer) = true := by
    rw [← Entry.isOk_read context, hread]
    rfl
  obtain ⟨root, hroot, hneeds⟩ := (Option.any_eq_true _ _).mp hheld
  have hflat := isFlat_of_answerRoot? (isFlat_compact answer) hroot
  have hbuckets := entry.buckets_not_mem_path need hneed
  obtain ⟨items, hitems⟩ := exists_array_of_heldBy
    (List.all_eq_true.mp ((Bool.and_eq_true _ _).mp hneeds).1 need hneed)
    fun part hpart => isObject_eq_false_of_at? hflat hpart hbuckets hlayer
  exact ⟨root, items, hroot, hitems⟩

/-! ## Selections -/

namespace Selection

variable {context : Context} {selection : Selection} {answer other : Json}

theorem readAfter_congr
    (hread : ∀ entry ∈ selection, entry.read context answer = entry.read context other)
    (table : List (String × Summary)) :
    readAfter context answer table selection = readAfter context other table selection := by
  induction selection generalizing table with
  | nil => rfl
  | cons entry rest ih =>
      obtain ⟨hentry, hrest⟩ := List.forall_mem_cons.mp hread
      rw [readAfter, readAfter, hentry]
      simp only [ih hrest]

/-- Strict work ends with the condition of an entry if one of them cannot be read. -/
theorem exists_malformed_of_unread {entry : Entry} (hentry : entry ∈ selection)
    (hunread : ∀ summary, entry.read context answer ≠ .ok summary) :
    ∃ failing ∈ selection, ∃ missing, ∀ earlier,
      runIn .strict earlier (selection.read context answer) =
        (.error (.malformedAnswer failing.id missing), earlier) := by
  have hyields := yields_readAfter context answer [] selection
  cases hissues : selection.filterMap (malformed? context answer) with
  | nil =>
      have hnone := List.filterMap_eq_nil_iff.mp hissues entry hentry
      rw [malformed?] at hnone
      split at hnone
      next summary hread => exact absurd hread (hunread summary)
      next => cases hnone
  | cons first rest =>
      have hmem : first ∈ selection.filterMap (malformed? context answer) := by simp [hissues]
      obtain ⟨failing, hfailing, hfirst⟩ := List.mem_filterMap.mp hmem
      rw [malformed?] at hfirst
      split at hfirst
      next => cases hfirst
      next missing hread =>
        obtain rfl := Option.some.inj hfirst
        refine ⟨failing, hfailing, missing, ?_⟩
        intro earlier
        rw [read, hyields.strict, hissues]
        rfl

end Selection

/-- A compacted answer is read like the answer itself if compacting does nothing to the
parts of it that the selected entries read. Where one of them has a layer on its path,
strict work fails on the compacted answer, unless an array is at the end of that path.
All entries but five have one. -/
theorem read_compacted_answers (context : Context) (selection : Selection) {answer : Json}
    (hanswer : answer.WellFormed) :
    ((∀ entry ∈ selection, entry.KeptIn answer) →
      selection.read context (compact answer) = selection.read context answer) ∧
    (∀ entry ∈ selection, ∀ need ∈ entry.needs, need.path.any isSynthetic = true →
      (∀ root items, answerRoot? (compact answer) entry.id = some root →
        root.at? need.path ≠ some (.arr items)) →
      ∃ failing ∈ selection, ∃ missing, ∀ earlier,
        runIn .strict earlier (selection.read context (compact answer)) =
          (.error (.malformedAnswer failing.id missing), earlier)) ∧
    ∀ entry : Entry, (∃ need ∈ entry.needs, need.path.any isSynthetic = true) ↔
      entry ∉ [.finalPriceSums, .mainDivisions, .countries, .mainClassifications,
        .indicators] := by
  refine ⟨?_, ?_, Entry.exists_layer_on_path_iff⟩
  · intro hkept
    apply Selection.readAfter_congr
    intro entry hentry
    exact Entry.read_compact context hanswer (hkept entry hentry)
  · intro entry hentry need hneed hlayer harray
    apply Selection.exists_malformed_of_unread hentry
    intro summary hread
    obtain ⟨root, items, hroot, hitems⟩ := Entry.exists_array_of_read_compact hread hneed hlayer
    exact harray root items hroot hitems

/-- An authority with seven tenders. -/
def authorityBehindLayer : Json :=
  .obj [("top_authorities", .obj [
    ("authorities_nested", .obj [("buckets", .arr [.obj [
      ("doc_count", Json.ofNat 7),
      ("hits", .obj [("hits", .obj [("hits", .arr [.obj [("_source", .obj [])]])])]),
      ("key", .str "group")]])]),
    ("doc_count", Json.ofNat 9)])]

/-- Three tenders of a country, beside a layer with the given fields. -/
def oneCountryBeside (inner : Fields) : Json :=
  .obj [("terms_countries", .obj [
    ("buckets", .arr [.obj [("doc_count", Json.ofNat 3), ("key", .str "CZ")]]),
    ("more_nested", .obj inner)])]

/-- The layer with the authorities is gone once the answer is compacted, and a layer
with buckets puts them in the place of the country. -/
theorem compacted_answers_are_read_otherwise :
    runIn .strict [] (Selection.read ⟨fun _ _ => none, "en", 0, 2000, 2030⟩ authorityBehindLayer
        [.topAuthorities]) =
      (.ok [("top_authorities", .top 9 [⟨7, .obj []⟩])], []) ∧
    runIn .strict [] (Selection.read ⟨fun _ _ => none, "en", 0, 2000, 2030⟩
        (compact authorityBehindLayer) [.topAuthorities]) =
      (.error (.malformedAnswer "top_authorities" "authorities_nested"), []) ∧
    runIn .strict [] (Selection.read ⟨fun _ _ => none, "en", 0, 2000, 2030⟩
        (oneCountryBeside [("buckets", .arr [])]) [.countries]) =
      (.ok [("terms_countries", .counts [("cz", 3)])], []) ∧
    runIn .strict [] (Selection.read ⟨fun _ _ => none, "en", 0, 2000, 2030⟩
        (compact (oneCountryBeside [("buckets", .arr [])])) [.countries]) =
      (.ok [("terms_countries", .counts [])], []) :=
  ⟨rfl, rfl, rfl, rfl⟩

theorem keptIn_oneCountryBeside : Entry.countries.KeptIn (oneCountryBeside [("value", .null)]) := by
  have hroot : ∀ root, answerRoot? (oneCountryBeside [("value", .null)]) Entry.countries.id =
      some root → root = .obj [
        ("buckets", .arr [.obj [("doc_count", Json.ofNat 3), ("key", .str "CZ")]]),
        ("more_nested", .obj [("value", .null)])] := by
    intro root hroot
    exact (Option.some.inj hroot).symm
  constructor
  · refine ⟨fieldKept_of_layersOf (by decide), ?_⟩
    rintro member hmember
    obtain rfl := Option.some.inj hmember
    exact ⟨fieldKept_of_layersOf (by decide), fun _ _ => trivial⟩
  · intro htop
    cases htop
  · intro root hget need hneed
    obtain rfl := hroot root hget
    obtain rfl : need = .buckets [] := by simpa [Entry.needs] using hneed
    exact ⟨fieldKept_of_layersOf (by decide), fun _ _ => trivial⟩
  · intro root hget need hneed items hitems
    obtain rfl := hroot root hget
    obtain rfl : need = .buckets [] := by simpa [Entry.needs] using hneed
    cases hitems

/-- A layer beside the buckets makes no difference if it holds none, and the layer with
the authorities makes one. -/
theorem read_compacted_answers_beside_layer :
    Selection.read ⟨fun _ _ => none, "en", 0, 2000, 2030⟩
        (compact (oneCountryBeside [("value", .null)])) [.countries] =
      Selection.read ⟨fun _ _ => none, "en", 0, 2000, 2030⟩
        (oneCountryBeside [("value", .null)]) [.countries] ∧
    ∃ failing ∈ [Entry.topAuthorities], ∃ missing, ∀ earlier,
      runIn .strict earlier (Selection.read ⟨fun _ _ => none, "en", 0, 2000, 2030⟩
          (compact authorityBehindLayer) [.topAuthorities]) =
        (.error (.malformedAnswer failing.id missing), earlier) := by
  have hcountry : (oneCountryBeside [("value", .null)]).WellFormed := by
    simp only [oneCountryBeside, WellFormed, WellFormedFields, WellFormedItems, Table.Ascending,
      Json.ofNat, Json.ofInt]
    decide
  have hauthority : authorityBehindLayer.WellFormed := by
    simp only [authorityBehindLayer, WellFormed, WellFormedFields, WellFormedItems, Table.Ascending,
      Json.ofNat, Json.ofInt]
    decide
  constructor
  · apply (read_compacted_answers _ [.countries] hcountry).1
    intro entry hentry
    rw [List.mem_singleton.mp hentry]
    exact keptIn_oneCountryBeside
  · apply (read_compacted_answers _ [.topAuthorities] hauthority).2.1 .topAuthorities
      List.mem_cons_self (.groups ["authorities_nested"]) List.mem_cons_self (by decide)
    intro root items hroot hitems
    obtain rfl : root = .obj _ := (Option.some.inj hroot).symm
    cases hitems

end TenderSearch.Catalog
