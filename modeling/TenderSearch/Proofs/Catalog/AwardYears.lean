import Mathlib.Data.Int.ConditionallyCompleteOrder
import Mathlib.Data.List.Induction
import TenderSearch.Proofs.Catalog.Regions
import TenderSearch.Proofs.Catalog.Sources

/-!
# Counts by the years of awards

The year of a bucket is what the first four bytes of the text of its key spell.
The last bucket of every valid year is counted, and buckets without a year are
passed over. A narrower range of valid years takes years out of the counts and
changes nothing else.
-/

namespace TenderSearch

/-! ## The first bytes of a text -/

namespace Text

open TenderSearch.Toml (digitValue digitValue_lt)

theorem utf8EncodeChar_append_inj {c d : Char} {rest others : List UInt8}
    (heq : String.utf8EncodeChar c ++ rest = String.utf8EncodeChar d ++ others) :
    c = d ∧ rest = others := by
  rcases Std.lt_trichotomy c d with hless | rfl | hgreater
  · exact absurd (heq ▸ utf8EncodeChar_append_lt hless rest others) (List.lt_irrefl _)
  · exact ⟨rfl, List.append_cancel_left heq⟩
  · exact absurd (heq ▸ utf8EncodeChar_append_lt hgreater others rest) (List.lt_irrefl _)

/-- A text whose form starts with the form of another one starts with it as well. -/
theorem exists_append_of_flatMap_utf8EncodeChar {start text : List Char} {rest : List UInt8}
    (hform : text.flatMap String.utf8EncodeChar = start.flatMap String.utf8EncodeChar ++ rest) :
    ∃ others, text = start ++ others := by
  induction start generalizing text with
  | nil => exact ⟨text, rfl⟩
  | cons c start ih =>
      cases text with
      | nil =>
          rw [List.flatMap_nil, List.flatMap_cons, List.append_assoc] at hform
          exact absurd (List.nil_eq_append_iff.mp hform).1 String.utf8EncodeChar_ne_nil
      | cons d text =>
          rw [List.flatMap_cons, List.flatMap_cons, List.append_assoc] at hform
          obtain ⟨rfl, hrest⟩ := utf8EncodeChar_append_inj hform
          obtain ⟨others, rfl⟩ := ih hrest
          exact ⟨others, rfl⟩

theorem ofDigits_lt {digits : List Nat} (hdigits : ∀ d ∈ digits, d < 10) :
    ofDigits digits < 10 ^ digits.length := by
  induction digits using List.reverseRecOn with
  | nil => decide
  | append_singleton front last ih =>
      obtain ⟨hfront, hlast⟩ := List.forall_mem_append.mp hdigits
      have hbelow := ih hfront
      have hvalue : ofDigits (front ++ [last]) = 10 * ofDigits front + last := by
        simp [ofDigits]
      have hdigit := hlast last List.mem_cons_self
      rw [hvalue, List.length_append, List.length_singleton, Nat.pow_succ]
      omega

theorem SpellsInteger.natAbs_lt {numeral : List Char} {n : Int}
    (hnumeral : SpellsInteger numeral n) : n.natAbs < 10 ^ numeral.length := by
  cases hnumeral with
  | @mk mark digits negative _ hdigits _ =>
      have hvalues : ∀ d ∈ digits.map digitValue, d < 10 :=
        List.forall_mem_map.mpr fun c hc => digitValue_lt (hdigits c hc)
      have hvalue := ofDigits_lt hvalues
      have hlonger : 10 ^ (digits.map digitValue).length ≤ 10 ^ (mark ++ digits).length :=
        Nat.pow_le_pow_right (by decide) (by simp)
      cases negative <;> simp only [Bool.false_eq_true, if_true, if_false] <;> omega

end Text

namespace Catalog

open Text (SpellsInteger utf8 utf8_eq_flatMap)

/-- Every character takes a byte at least. -/
theorem length_le_form (text : List Char) :
    text.length ≤ (text.flatMap String.utf8EncodeChar).length := by
  induction text with
  | nil => exact Nat.le_refl 0
  | cons c rest ih =>
      have hpos := c.utf8Size_pos
      rw [List.length_cons, List.flatMap_cons, List.length_append, String.length_utf8EncodeChar]
      omega

theorem length_form_eq_zero_iff {text : List Char} :
    (text.flatMap String.utf8EncodeChar).length = 0 ↔ text = [] := by
  constructor
  · intro hlength
    exact List.length_eq_zero_iff.mp (Nat.le_zero.mp (hlength ▸ length_le_form text))
  · rintro rfl
    rfl

/-- Only whole characters are taken. -/
theorem takeBytes?_eq_some_iff {bytes : Nat} {text start : List Char} :
    takeBytes? bytes text = some start ↔
      (∃ rest, text = start ++ rest) ∧ (start.flatMap String.utf8EncodeChar).length = bytes := by
  fun_induction takeBytes? bytes text generalizing start with
  | case1 text =>
      rw [length_form_eq_zero_iff, Option.some.injEq, eq_comm]
      exact ⟨fun hnil => ⟨⟨text, by rw [hnil]; rfl⟩, hnil⟩, And.right⟩
  | case2 n =>
      refine ⟨nofun, ?_⟩
      rintro ⟨⟨rest, hnil⟩, hlength⟩
      rw [(List.nil_eq_append_iff.mp hnil).1] at hlength
      cases hlength
  | case3 n c text hfits ih =>
      rw [Option.map_eq_some_iff]
      constructor
      · rintro ⟨start, hstart, rfl⟩
        obtain ⟨⟨rest, rfl⟩, hlength⟩ := ih.mp hstart
        refine ⟨⟨rest, rfl⟩, ?_⟩
        rw [List.flatMap_cons, List.length_append, hlength, String.length_utf8EncodeChar]
        omega
      · rintro ⟨⟨rest, hsplit⟩, hlength⟩
        cases start with
        | nil => cases hlength
        | cons d start =>
            obtain ⟨rfl, rfl⟩ := List.cons.inj hsplit
            rw [List.flatMap_cons, List.length_append, String.length_utf8EncodeChar] at hlength
            exact ⟨start, ih.mpr ⟨⟨rest, rfl⟩, by omega⟩, rfl⟩
  | case4 n c text hfits =>
      refine ⟨nofun, ?_⟩
      rintro ⟨⟨rest, hsplit⟩, hlength⟩
      cases start with
      | nil => cases hlength
      | cons d start =>
          obtain ⟨rfl, rfl⟩ := List.cons.inj hsplit
          rw [List.flatMap_cons, List.length_append, String.length_utf8EncodeChar] at hlength
          omega

/-! ## The year of a bucket -/

/-- The first four bytes of a text are those of an integer, which may have a sign. -/
def SpellsYear (text : String) (year : Int) : Prop :=
  ∃ numeral : String, SpellsInteger numeral.toList year ∧ (utf8 numeral).length = 4 ∧
    (utf8 text).take 4 = utf8 numeral

theorem int32?_takeBytes?_eq_some_iff {text : String} {year : Int} :
    (takeBytes? 4 text.toList).bind Text.int32? = some year ↔ SpellsYear text year := by
  simp only [Option.bind_eq_some_iff, takeBytes?_eq_some_iff, Text.int32?,
    Option.filter_eq_some_iff, Text.int?_eq_some_iff, decide_eq_true_eq]
  constructor
  · rintro ⟨start, ⟨⟨rest, hsplit⟩, hlength⟩, hnumeral, -⟩
    refine ⟨String.ofList start, by rwa [String.toList_ofList], ?_, ?_⟩
    · rwa [utf8_eq_flatMap, String.toList_ofList]
    · rw [utf8_eq_flatMap, utf8_eq_flatMap, String.toList_ofList, hsplit, List.flatMap_append,
        List.take_left' hlength]
  · rintro ⟨numeral, hnumeral, hlength, htake⟩
    rw [utf8_eq_flatMap] at hlength
    have hform := List.take_append_drop 4 (utf8 text)
    rw [htake, utf8_eq_flatMap, utf8_eq_flatMap] at hform
    refine ⟨numeral.toList,
      ⟨Text.exists_append_of_flatMap_utf8EncodeChar hform.symm, hlength⟩, hnumeral, ?_⟩
    -- what takes four bytes has four digits at most
    have hsmall : year.natAbs < 10 ^ 4 :=
      Nat.lt_of_lt_of_le hnumeral.natAbs_lt
        (Nat.pow_le_pow_right (by decide) (hlength ▸ length_le_form numeral.toList))
    change -2 ^ 31 ≤ year ∧ year < 2 ^ 31
    omega

/-- The text of a bucket's key spells a year. -/
def Bucket.HasYear (bucket : Bucket) (year : Int) : Prop :=
  ∃ text, bucket.keyText = some text ∧ SpellsYear text year

theorem Bucket.year?_eq_some_iff {bucket : Bucket} {year : Int} :
    bucket.year? = some year ↔ bucket.HasYear year := by
  rw [Bucket.year?, Option.bind_eq_bind, Option.bind_eq_some_iff]
  simp only [Option.bind_eq_bind, int32?_takeBytes?_eq_some_iff, Bucket.HasYear]

theorem Bucket.HasYear.eq {bucket : Bucket} {year other : Int} (hyear : bucket.HasYear year)
    (hother : bucket.HasYear other) : year = other := by
  rw [← Bucket.year?_eq_some_iff] at hyear hother
  exact Option.some.inj (hyear.symm.trans hother)

/-! ## Counts by years -/

/-- The years that are counted. -/
def Context.validYears (context : Context) : Set Int :=
  Set.Icc context.firstYear context.lastYear

instance (context : Context) (year : Int) : Decidable (year ∈ context.validYears) :=
  inferInstanceAs (Decidable (context.firstYear ≤ year ∧ year ≤ context.lastYear))

theorem yearCount?_eq_some_iff {context : Context} {bucket : Bucket} {year : Int} {count : Nat} :
    yearCount? context bucket = some (year, count) ↔
      bucket.HasYear year ∧ year ∈ context.validYears ∧ bucket.count = count := by
  simp only [yearCount?, Option.bind_eq_bind, Option.bind_eq_some_iff,
    Bucket.year?_eq_some_iff, Option.ite_none_right_eq_some, Option.some.injEq, Prod.mk.injEq]
  constructor
  · rintro ⟨_, hyear, hvalid, rfl, hcount⟩
    exact ⟨hyear, hvalid, hcount⟩
  · rintro ⟨hyear, hvalid, hcount⟩
    exact ⟨year, hyear, hvalid, rfl, hcount⟩

/-- The last bucket of a list with a year. -/
def IsLastOf (year : Int) (buckets : List Bucket) (bucket : Bucket) : Prop :=
  bucket.HasYear year ∧ ∃ before after, buckets = before ++ bucket :: after ∧
    ∀ later ∈ after, ¬ later.HasYear year

def yearCounts (context : Context) (buckets : List Bucket) : List (Int × Nat) :=
  Table.ofList (buckets.filterMap (yearCount? context))

theorem has_yearCounts_iff {context : Context} {buckets : List Bucket} {year : Int} :
    Table.has year (yearCounts context buckets) = true ↔
      year ∈ context.validYears ∧ ∃ bucket ∈ buckets, bucket.HasYear year := by
  rw [yearCounts, Table.has_ofList_iff, List.mem_map]
  constructor
  · rintro ⟨⟨_, count⟩, hentry, rfl⟩
    obtain ⟨bucket, hbucket, hcount⟩ := List.mem_filterMap.mp hentry
    obtain ⟨hyear, hvalid, -⟩ := yearCount?_eq_some_iff.mp hcount
    exact ⟨hvalid, bucket, hbucket, hyear⟩
  · rintro ⟨hvalid, bucket, hbucket, hyear⟩
    have hcount := yearCount?_eq_some_iff.mpr ⟨hyear, hvalid, rfl⟩
    exact ⟨_, List.mem_filterMap.mpr ⟨bucket, hbucket, hcount⟩, rfl⟩

theorem get?_yearCounts_iff {context : Context} {buckets : List Bucket} {year : Int}
    {count : Nat} :
    Table.get? year (yearCounts context buckets) = some count ↔
      year ∈ context.validYears ∧ ∃ bucket, IsLastOf year buckets bucket ∧
        bucket.count = count := by
  rw [yearCounts, Table.get?_ofList_eq_some_iff]
  constructor
  · rintro ⟨before, after, hentries, hafter⟩
    obtain ⟨first, rest, rfl, -, hrest⟩ := List.filterMap_eq_append_iff.mp hentries
    obtain ⟨passed, bucket, later, rfl, -, hbucket, rfl⟩ := List.filterMap_eq_cons_iff.mp hrest
    obtain ⟨hyear, hvalid, hcount⟩ := yearCount?_eq_some_iff.mp hbucket
    refine ⟨hvalid, bucket, ⟨hyear, first ++ passed, later, by simp, ?_⟩, hcount⟩
    intro other hother hsame
    have hentry := yearCount?_eq_some_iff.mpr ⟨hsame, hvalid, rfl⟩
    exact hafter _ (List.mem_filterMap.mpr ⟨other, hother, hentry⟩) rfl
  · rintro ⟨hvalid, bucket, ⟨hyear, before, after, rfl, hafter⟩, hcount⟩
    have hentry := yearCount?_eq_some_iff.mpr ⟨hyear, hvalid, hcount⟩
    refine ⟨before.filterMap (yearCount? context), after.filterMap (yearCount? context), ?_, ?_⟩
    · rw [List.filterMap_append, List.filterMap_cons_some hentry]
    · rintro ⟨other, otherCount⟩ hother rfl
      obtain ⟨later, hlater, hsame⟩ := List.mem_filterMap.mp hother
      exact hafter later hlater (yearCount?_eq_some_iff.mp hsame).1

/-- In a narrower range the counts are those of the years that remain. -/
theorem yearCounts_of_subset {context narrower : Context}
    (hyears : narrower.validYears ⊆ context.validYears) (buckets : List Bucket) :
    yearCounts narrower buckets = (yearCounts context buckets).filter fun entry =>
      decide (entry.1 ∈ narrower.validYears) := by
  apply (Table.ascending_ofList _).ext ((Table.ascending_ofList _).filter _)
  intro year
  change Table.get? year (yearCounts narrower buckets) =
    Table.get? year ((yearCounts context buckets).filter _)
  rw [Table.get?_filter fun year => decide (year ∈ narrower.validYears)]
  apply Option.ext
  intro count
  simp only [decide_eq_true_eq, Option.ite_none_right_eq_some,
    get?_yearCounts_iff]
  constructor
  · rintro ⟨hvalid, hbucket⟩
    exact ⟨hvalid, hyears hvalid, hbucket⟩
  · rintro ⟨hvalid, -, hbucket⟩
    exact ⟨hvalid, hbucket⟩

/-- No two buckets of a list have the same year. -/
def DistinctYears (buckets : List Bucket) : Prop :=
  buckets.Pairwise fun first second => ∀ year, first.HasYear year → ¬ second.HasYear year

theorem distinctYears_iff {buckets : List Bucket} :
    DistinctYears buckets ↔ (buckets.filterMap Bucket.year?).Nodup := by
  rw [DistinctYears, List.Nodup, List.pairwise_filterMap]
  refine iff_of_eq (congrArg (List.Pairwise · buckets) ?_)
  funext first second
  simp only [← Bucket.year?_eq_some_iff, eq_iff_iff]
  constructor
  · rintro hyears year hfirst other hsecond rfl
    exact hyears year hfirst hsecond
  · intro hyears year hfirst hsecond
    exact hyears year hfirst year hsecond rfl

instance (buckets : List Bucket) : Decidable (DistinctYears buckets) :=
  decidable_of_iff _ distinctYears_iff.symm

theorem yearCounts_eq_of_perm {buckets others : List Bucket} (hperm : buckets.Perm others)
    (hdistinct : DistinctYears buckets) (context : Context) :
    yearCounts context buckets = yearCounts context others := by
  apply Table.ofList_eq_of_perm (hperm.filterMap _)
  rw [List.Nodup, List.pairwise_map, List.pairwise_filterMap]
  apply hdistinct.imp
  rintro first second hyears ⟨year, count⟩ hfirst ⟨other, otherCount⟩ hsecond rfl
  exact hyears year (yearCount?_eq_some_iff.mp hfirst).1 (yearCount?_eq_some_iff.mp hsecond).1

/-- The entries with counts by years. -/
def yearlyEntries : List Entry :=
  [.awardYears, .awardYearsReversed]

theorem Entry.read_yearly_iff {context : Context} {entry : Entry} (hentry : entry ∈ yearlyEntries)
    {answer : Json} {summary : Summary} :
    entry.read context answer = .ok summary ↔
      ∃ buckets, entry.buckets? answer = some buckets ∧
        .yearly (yearCounts context buckets) = summary := by
  simp only [yearlyEntries, List.mem_cons, List.not_mem_nil, or_false] at hentry
  rcases hentry with rfl | rfl
  · exact Entry.read_eq_ok_iff_of_list rfl fun _ => rfl
  · exact Entry.read_eq_ok_iff_of_list rfl fun _ => rfl

theorem Entry.exists_buckets?_iff {answer : Json} {entry : Entry} :
    (∃ buckets, entry.buckets? answer = some buckets) ↔
      ∃ items, entry.items? answer = some items ∧ ∀ item ∈ items, isBucket item = true := by
  simp only [← Option.isSome_iff_exists, Entry.buckets?]
  cases entry.items? answer with
  | none => simp
  | some items => simp [isSome_mapM, isSome_ofJson?]

/-- Counts by years can be read if every item of the list is a bucket, whatever the
texts of the keys spell. Just the valid years that some bucket has are counted, each
as often as its last bucket says. A narrower range of valid years takes the other
years out. Where no two buckets have the same year, their order makes no difference. -/
theorem award_years_count_last_buckets (context : Context) {entry : Entry}
    (hentry : entry ∈ yearlyEntries) (answer : Json) :
    ((∃ summary, entry.read context answer = .ok summary) ↔
      ∃ items, entry.items? answer = some items ∧ ∀ item ∈ items, isBucket item = true) ∧
    ∀ items buckets, entry.items? answer = some items →
      items.mapM Bucket.ofJson? = some buckets →
      ∃ counts, entry.read context answer = .ok (.yearly counts) ∧
        (∀ year, Table.has year counts = true ↔
          year ∈ context.validYears ∧ ∃ bucket ∈ buckets, bucket.HasYear year) ∧
        (∀ year count, Table.get? year counts = some count ↔
          year ∈ context.validYears ∧ ∃ bucket, IsLastOf year buckets bucket ∧
            bucket.count = count) ∧
        (∀ narrower : Context, narrower.validYears ⊆ context.validYears →
          entry.read narrower answer = .ok (.yearly (counts.filter fun entry =>
            decide (entry.1 ∈ narrower.validYears)))) ∧
        ∀ other others, DistinctYears buckets → entry.items? other = some others →
          items.Perm others → entry.read context other = .ok (.yearly counts) := by
  have hread : ∀ context : Context, ∀ {answer : Json} {items : List Json} {buckets : List Bucket},
      entry.items? answer = some items → items.mapM Bucket.ofJson? = some buckets →
      entry.read context answer = .ok (.yearly (yearCounts context buckets)) := by
    intro context answer items buckets hitems hbuckets
    refine (Entry.read_yearly_iff hentry).mpr ⟨buckets, ?_, rfl⟩
    rw [Entry.buckets?, hitems]
    exact hbuckets
  constructor
  · rw [← Entry.exists_buckets?_iff]
    simp only [Entry.read_yearly_iff hentry]
    constructor
    · rintro ⟨_, buckets, hbuckets, -⟩
      exact ⟨buckets, hbuckets⟩
    · rintro ⟨buckets, hbuckets⟩
      exact ⟨_, buckets, hbuckets, rfl⟩
  · intro items buckets hitems hbuckets
    refine ⟨yearCounts context buckets, hread context hitems hbuckets,
      fun _ => has_yearCounts_iff, fun _ _ => get?_yearCounts_iff, ?_, ?_⟩
    · intro narrower hyears
      rw [hread narrower hitems hbuckets, yearCounts_of_subset hyears]
    · intro other others hdistinct hothers hperm
      obtain ⟨otherBuckets, hotherBuckets, hbucketsPerm⟩ := exists_perm_of_mapM hperm hbuckets
      rw [hread context hothers hotherBuckets, yearCounts_eq_of_perm hbucketsPerm hdistinct]

def yearBucket (keyText : Json) (count : Nat) : Json :=
  .obj [("doc_count", Json.ofNat count), ("key", .null), ("key_as_string", keyText)]

/-- Two buckets of one year, one with a sign, and four without a year: a character is
cut, there is no digit, three bytes are too few, and there is no text. -/
def yearItems : List Json :=
  [yearBucket (.str "2012-01") 8, yearBucket (.str "201é") 1, yearBucket (.str "-044") 4,
    yearBucket (.str "year") 2, yearBucket (.str "201") 5, yearBucket .null 6,
    yearBucket (.str "2012é") 3]

def yearAnswer (items : List Json) : Json :=
  .obj [("histogram_lots_awardDecisionDate", .obj [
    ("dates_nested", .obj [("buckets", .arr items)])])]

/-- The last bucket of 2012 counts, and from 2000 on the year with the sign is left
out. The first three buckets can be read in another order. -/
theorem award_years_count_last_buckets_skipping :
    Entry.awardYears ∈ yearlyEntries ∧
    Entry.awardYears.read ⟨fun _ _ => none, "en", 0, -100, 2030⟩ (yearAnswer yearItems) =
      .ok (.yearly [(-44, 4), (2012, 3)]) ∧
    Entry.awardYears.read ⟨fun _ _ => none, "en", 0, 2000, 2030⟩ (yearAnswer yearItems) =
      .ok (.yearly [(2012, 3)]) ∧
    Entry.awardYears.read ⟨fun _ _ => none, "en", 0, -100, 2030⟩
        (yearAnswer (yearItems.take 3).reverse) =
      Entry.awardYears.read ⟨fun _ _ => none, "en", 0, -100, 2030⟩
        (yearAnswer (yearItems.take 3)) := by
  have hentry : Entry.awardYears ∈ yearlyEntries := by decide
  have hcounts : Entry.awardYears.read ⟨fun _ _ => none, "en", 0, -100, 2030⟩
      (yearAnswer yearItems) = .ok (.yearly [(-44, 4), (2012, 3)]) := rfl
  refine ⟨hentry, hcounts, ?_, ?_⟩
  · obtain ⟨-, hlist⟩ := award_years_count_last_buckets
      ⟨fun _ _ => none, "en", 0, -100, 2030⟩ hentry (yearAnswer yearItems)
    obtain ⟨counts, hread, -, -, hnarrower, -⟩ := hlist yearItems _ rfl rfl
    cases hcounts.symm.trans hread
    exact hnarrower ⟨fun _ _ => none, "en", 0, 2000, 2030⟩
      (Set.Icc_subset_Icc (by decide) (by decide))
  · obtain ⟨-, hlist⟩ := award_years_count_last_buckets
      ⟨fun _ _ => none, "en", 0, -100, 2030⟩ hentry (yearAnswer (yearItems.take 3))
    obtain ⟨counts, hread, -, -, -, horder⟩ := hlist (yearItems.take 3) _ rfl rfl
    rw [hread]
    exact horder _ _ (by decide) rfl (List.reverse_perm _).symm

end Catalog

end TenderSearch
