import Mathlib.Data.List.Forall2
import TenderSearch.Proofs.Aggregation.Levels

/-!
# Aggregations with like names

The key of an aggregation is its name with underscores for the dots, so it does
not tell names apart that differ in dots and underscores only. A level on which
there are no such names has one entry for every aggregation; on any other level
an entry is lost, also if all fields are different.
-/

namespace TenderSearch.Aggregation

/-- Names that differ in dots and underscores only. -/
def Alike (first second : String) : Prop :=
  List.Forall₂ (fun c d => c = d ∨ c ∈ ['.', '_'] ∧ d ∈ ['.', '_']) first.toList second.toList

theorem written_eq_iff {c d : Char} :
    (if c = '.' then '_' else c) = (if d = '.' then '_' else d) ↔
      c = d ∨ c ∈ ['.', '_'] ∧ d ∈ ['.', '_'] := by
  simp only [List.mem_cons, List.not_mem_nil, or_false]
  grind

theorem keyOf_eq_iff {first second : String} : keyOf first = keyOf second ↔ Alike first second := by
  rw [keyOf, keyOf, String.ofList_inj, ← List.forall₂_eq_eq_eq, List.forall₂_map_left_iff,
    List.forall₂_map_right_iff, Alike]
  simp only [written_eq_iff]

instance (first second : String) : Decidable (Alike first second) :=
  decidable_of_iff _ keyOf_eq_iff

/-- No two aggregations of a level have names that are alike. -/
def NamesApart (scopes : ScopeList) (level : List Aggregation) : Prop :=
  level.Pairwise fun first second =>
    ∀ name ∈ name? scopes first, ∀ other ∈ name? scopes second, ¬ Alike name other

instance (scopes : ScopeList) (level : List Aggregation) : Decidable (NamesApart scopes level) :=
  inferInstanceAs (Decidable (List.Pairwise _ level))

/-- The entries of a map, in some order, are those of the aggregations of a
level, one for each. -/
def OneEach (scopes : ScopeList) (defaultSize : Nat) (level : List Aggregation)
    (map : Json.Fields) : Prop :=
  ∃ entries : Json.Fields, entries.Perm map ∧
    List.Forall₂ (fun aggregation entry => Emits scopes defaultSize aggregation entry.1 entry.2)
      level entries

variable {scopes : ScopeList} {defaultSize : Nat}

theorem isSome_placed? {aggregation : Aggregation} (hfield : aggregation.field.isSome = true)
    (hkind : aggregation.kind ≠ .value) :
    (placed? scopes defaultSize aggregation).isSome = true := by
  obtain ⟨field, hfield⟩ := Option.isSome_iff_exists.mp hfield
  rw [placed?, hfield, Option.bind_some]
  unfold keyedFragment?
  cases scopes.resolve field with
  | some scope => rfl
  | none =>
      cases hcase : aggregation.kind with
      | value => exact absurd hcase hkind
      | _ => rfl

theorem forall₂_entries (scopes : ScopeList) (defaultSize : Nat) {level : List Aggregation}
    (hasked : ∀ aggregation ∈ level, aggregation.field.isSome = true ∧
      aggregation.kind ≠ .value) :
    List.Forall₂ (fun aggregation entry => Emits scopes defaultSize aggregation entry.1 entry.2)
      level (level.filterMap (placed? scopes defaultSize)) := by
  induction level with
  | nil => exact .nil
  | cons aggregation rest ih =>
      obtain ⟨⟨hfield, hkind⟩, hrest⟩ := List.forall_mem_cons.mp hasked
      obtain ⟨entry, hentry⟩ := Option.isSome_iff_exists.mp (isSome_placed? hfield hkind)
      rw [List.filterMap_cons_some hentry]
      exact .cons (emits_of_placed? hentry) (ih hrest)

/-- Keys are distinct where no names are alike. -/
theorem nodup_keys_iff (level : List Aggregation) :
    ((level.filterMap (placed? scopes defaultSize)).map Prod.fst).Nodup ↔
      NamesApart scopes level := by
  rw [List.Nodup, List.pairwise_map, List.pairwise_filterMap]
  apply List.Pairwise.iff
  intro first second
  constructor
  · intro hkeys name hname other hother halike
    have hkey : key? scopes first = some (keyOf name) := by rw [key?, hname, Option.map_some]
    have hkey' : key? scopes second = some (keyOf other) := by rw [key?, hother, Option.map_some]
    obtain ⟨entry, hentry, heq⟩ := exists_placed?_of_key? defaultSize hkey
    obtain ⟨entry', hentry', heq'⟩ := exists_placed?_of_key? defaultSize hkey'
    apply hkeys entry hentry entry' hentry'
    rw [heq, heq', keyOf_eq_iff]
    exact halike
  · intro hnames entry hentry entry' hentry' hkey
    obtain ⟨name, hname, heq⟩ := Option.map_eq_some_iff.mp (key?_of_placed? hentry)
    obtain ⟨other, hother, heq'⟩ := Option.map_eq_some_iff.mp (key?_of_placed? hentry')
    apply hnames name hname other hother
    rw [← keyOf_eq_iff, heq, heq', hkey]

/-- Where every aggregation of a level has a field and is no plain value, there is
one entry for each if no two of their names are alike: the field, or outside of
all scopes the field with the suffix of the kind. Otherwise the map has fewer
entries than there are aggregations. -/
theorem level_has_one_entry_each {aggregations level : List Aggregation} {map : Json.Fields}
    (hlevel : Level scopes defaultSize aggregations level map)
    (hasked : ∀ aggregation ∈ level, aggregation.field.isSome = true ∧
      aggregation.kind ≠ .value) :
    (NamesApart scopes level → OneEach scopes defaultSize level map) ∧
    (¬ NamesApart scopes level → map.length < level.length) := by
  have hentries := forall₂_entries scopes defaultSize hasked
  rw [hlevel.eq_request, request_eq_ofList]
  constructor
  · intro hnames
    exact ⟨_, (Table.perm_ofList ((nodup_keys_iff level).mpr hnames)).symm, hentries⟩
  · intro hnames
    rw [hentries.length_eq]
    exact Table.length_ofList_lt (mt (nodup_keys_iff level).mp hnames)

/-- Inside of the aggregation on the country nothing is lost: the prices have
different names, and the one in a scope keeps its name without a suffix. -/
theorem level_has_one_entry_each_inside :
    Level ScopeList.standard 5
      [((on .terms "country").inside (on .sum "price")).inside (on .sum "lots.price")]
      [on .sum "price", on .sum "lots.price"]
      [("lots_price", wrapped "lots" "lots.price" 5), ("price_sum", sumFragment "price")] ∧
    (∀ aggregation ∈ [on .sum "price", on .sum "lots.price"],
      aggregation.field.isSome = true ∧ aggregation.kind ≠ .value) ∧
    OneEach ScopeList.standard 5 [on .sum "price", on .sum "lots.price"]
      [("lots_price", wrapped "lots" "lots.price" 5), ("price_sum", sumFragment "price")] := by
  have hlevel : Level ScopeList.standard 5
      [((on .terms "country").inside (on .sum "price")).inside (on .sum "lots.price")] _ _ :=
    Level.whole.inside ⟨rfl, [], [], rfl, by simp⟩ rfl rfl rfl
  have hasked : ∀ aggregation ∈ [on .sum "price", on .sum "lots.price"],
      aggregation.field.isSome = true ∧ aggregation.kind ≠ .value := by
    simp [on]
  exact ⟨hlevel, hasked, (level_has_one_entry_each hlevel hasked).1 (by decide)⟩

/-- Different fields are not enough: of `final.price` and `final_price` only the
second one is aggregated. -/
theorem request_loses_alike_field :
    ¬ ∀ scopes defaultSize aggregations,
      (∀ aggregation ∈ aggregations, aggregation.field.isSome = true ∧
        aggregation.kind ≠ .value) →
      (aggregations.map Aggregation.field).Nodup →
      (request scopes defaultSize aggregations).length = aggregations.length := by
  intro hkept
  have hlength := hkept ScopeList.standard 5 [on .terms "final.price", on .terms "final_price"]
    (by simp [on]) (by decide)
  exact absurd hlength (by decide)

end TenderSearch.Aggregation
