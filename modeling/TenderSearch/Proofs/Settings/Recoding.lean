import TenderSearch.Proofs.Json.Recoding
import TenderSearch.Settings.Record

/-!
# Recoding settings

Settings whose numbers fit their 32 bits are the same after they are written and
read again. Every field is written, so that no default can take its place.
-/

namespace TenderSearch

open Json

/-- The years are numbers of 32 bits with a sign. -/
structure Settings.Reading.YearsFit (reading : Settings.Reading) : Prop where
  first : FitsBits 32 reading.firstYear
  last : ∀ year, reading.lastYear = some year → FitsBits 32 year

/-- The bucket size and the years are numbers of 32 bits. -/
structure Settings.Fits (settings : Settings) : Prop where
  size : settings.search.defaultSize < Nat.pow 2 32
  years : settings.reading.YearsFit

theorem Mode.ofName?_name (mode : Mode) : Mode.ofName? mode.name = some mode := by
  cases mode <;> rfl

namespace Settings

theorem setupOfJson?_written (setup : Search.Setup) (hsize : setup.defaultSize < Nat.pow 2 32) :
    setupOfJson? (.obj [
      ("country_field", .str setup.countryField),
      ("default_bucket_size", ofNat setup.defaultSize),
      ("default_sort_field", .str setup.defaultSortField),
      ("nested_scopes", ofStrings setup.scopes)]) = some setup := by
  unfold setupOfJson?
  -- the fields one by one, each of them found by its name
  refine Option.bind_eq_some_iff.mpr ⟨_, rfl, ?_⟩
  refine Option.bind_eq_some_iff.mpr ⟨_, strings?_ofStrings setup.scopes, ?_⟩
  refine Option.bind_eq_some_iff.mpr ⟨setup.defaultSortField, rfl, ?_⟩
  refine Option.bind_eq_some_iff.mpr ⟨_, natOfBits?_ofNat hsize, ?_⟩
  exact Option.bind_eq_some_iff.mpr ⟨setup.countryField, rfl, rfl⟩

theorem readingOfJson?_written (reading : Reading) (hyears : reading.YearsFit) :
    readingOfJson? (.obj [
      ("language", .str reading.language),
      ("max_year", (reading.lastYear.map ofInt).getD .null),
      ("min_year", ofInt reading.firstYear)]) = some reading := by
  have hlast : optional? "max_year" (intOfBits? 32) [("language", .str reading.language),
      ("max_year", (reading.lastYear.map ofInt).getD .null),
      ("min_year", ofInt reading.firstYear)] = some reading.lastYear := by
    cases hyear : reading.lastYear with
    | none => rfl
    | some year => exact congrArg (Option.map some) (intOfBits?_ofInt (hyears.last year hyear))
  unfold readingOfJson?
  refine Option.bind_eq_some_iff.mpr ⟨_, rfl, ?_⟩
  refine Option.bind_eq_some_iff.mpr ⟨_, intOfBits?_ofInt hyears.first, ?_⟩
  refine Option.bind_eq_some_iff.mpr ⟨_, hlast, ?_⟩
  exact Option.bind_eq_some_iff.mpr ⟨reading.language, rfl, rfl⟩

theorem ofJson?_toJson (settings : Settings) (hfits : settings.Fits) :
    ofJson? settings.toJson = some settings := by
  unfold ofJson?
  refine Option.bind_eq_some_iff.mpr ⟨_, rfl, ?_⟩
  refine Option.bind_eq_some_iff.mpr ⟨_, setupOfJson?_written settings.search hfits.size, ?_⟩
  refine Option.bind_eq_some_iff.mpr ⟨_, Mode.ofName?_name settings.mode, ?_⟩
  refine Option.bind_eq_some_iff.mpr ⟨_, readingOfJson?_written settings.reading hfits.years, ?_⟩
  exact Option.bind_eq_some_iff.mpr ⟨settings.logLevel, rfl, rfl⟩

/-! ## What is read -/

theorem fits_standard : standard.Fits where
  size := by decide
  years := {
    first := by decide
    last := fun _ hyear => nomatch hyear }

theorem size_fits_of_setupOfJson? {value : Json} {setup : Search.Setup}
    (hread : setupOfJson? value = some setup) : setup.defaultSize < Nat.pow 2 32 := by
  unfold setupOfJson? at hread
  obtain ⟨fields, -, hread⟩ := Option.bind_eq_some_iff.mp hread
  obtain ⟨scopes, -, hread⟩ := Option.bind_eq_some_iff.mp hread
  obtain ⟨sortField, -, hread⟩ := Option.bind_eq_some_iff.mp hread
  obtain ⟨size, hsize, hread⟩ := Option.bind_eq_some_iff.mp hread
  obtain ⟨countryField, -, hread⟩ := Option.bind_eq_some_iff.mp hread
  cases hread
  exact property_of_defaulted? (· < Nat.pow 2 32) fits_standard.size
    (fun _ _ => lt_of_natOfBits?) hsize

theorem yearsFit_of_readingOfJson? {value : Json} {reading : Reading}
    (hread : readingOfJson? value = some reading) : reading.YearsFit := by
  unfold readingOfJson? at hread
  obtain ⟨fields, -, hread⟩ := Option.bind_eq_some_iff.mp hread
  obtain ⟨firstYear, hfirst, hread⟩ := Option.bind_eq_some_iff.mp hread
  obtain ⟨lastYear, hlast, hread⟩ := Option.bind_eq_some_iff.mp hread
  obtain ⟨language, -, hread⟩ := Option.bind_eq_some_iff.mp hread
  cases hread
  constructor
  · exact property_of_defaulted? (FitsBits 32) fits_standard.years.first
      (fun _ _ => fitsBits_of_intOfBits?) hfirst
  · rintro year rfl
    obtain ⟨_, hvalue⟩ := exists_of_optional? hlast
    exact fitsBits_of_intOfBits? hvalue

theorem fits_of_ofJson? (value : Json) (settings : Settings)
    (hread : ofJson? value = some settings) : settings.Fits := by
  unfold ofJson? at hread
  obtain ⟨fields, -, hread⟩ := Option.bind_eq_some_iff.mp hread
  obtain ⟨search, hsearch, hread⟩ := Option.bind_eq_some_iff.mp hread
  obtain ⟨mode, -, hread⟩ := Option.bind_eq_some_iff.mp hread
  obtain ⟨reading, hreading, hread⟩ := Option.bind_eq_some_iff.mp hread
  obtain ⟨level, -, hread⟩ := Option.bind_eq_some_iff.mp hread
  cases hread
  have hsize : search.defaultSize < Nat.pow 2 32 :=
    property_of_defaulted? (fun setup => setup.defaultSize < Nat.pow 2 32)
      fits_standard.size (fun _ _ => size_fits_of_setupOfJson?) hsearch
  have hyears : reading.YearsFit :=
    property_of_defaulted? Reading.YearsFit fits_standard.years
      (fun _ _ => yearsFit_of_readingOfJson?) hreading
  exact ⟨hsize, hyears⟩

theorem recodes : Recodes toJson ofJson? Settings.Fits :=
  recodes_of_decode_encode ofJson?_toJson fits_of_ofJson?

end Settings

end TenderSearch
