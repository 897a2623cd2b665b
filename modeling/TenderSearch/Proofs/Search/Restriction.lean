import TenderSearch.Proofs.Query.Country
import TenderSearch.Proofs.Table.Ascending

/-!
# Restricting any body

A body may be any value, not only one that was assembled for a search.
Restricting it to a country puts the condition on the country in the place of
one query that matches every document, or leaves the body as it is and raises
one condition. Which of the two happens depends only on whether such a query
stands in one of two places.
-/

namespace TenderSearch

namespace Search

open Report

/-! ## Values that differ in one place -/

/-- The second value is the first one with something else at the end of a path
of fields. -/
inductive DiffersAt (old new : Json) : List String → Json → Json → Prop where
  | here (hne : old ≠ new) : DiffersAt old new [] old new
  | field {key : String} {path : List String} {first second : Json}
      {before after : Json.Fields} (hbefore : ∀ entry ∈ before, entry.1 ≠ key)
      (hvalue : DiffersAt old new path first second) :
      DiffersAt old new (key :: path) (.obj (before ++ (key, first) :: after))
        (.obj (before ++ (key, second) :: after))

theorem exists_modify_eq {key : String} {value : Json} {fields : Json.Fields}
    (hget : Table.get? key fields = some value) (f : Json → Json) :
    ∃ before after, (∀ entry ∈ before, entry.1 ≠ key) ∧
      fields = before ++ (key, value) :: after ∧
      Table.modify key f fields = before ++ (key, f value) :: after := by
  induction fields with
  | nil => cases hget
  | cons entry rest ih =>
      obtain ⟨k, v⟩ := entry
      rw [Table.get?_cons] at hget
      split at hget
      next heq =>
        obtain rfl := Option.some.inj hget
        exact ⟨[], rest, by simp, by simp [heq], by simp [Table.modify, heq]⟩
      next hne =>
        obtain ⟨before, after, hbefore, rfl, hmodify⟩ := ih hget
        refine ⟨(k, v) :: before, after, ?_, rfl, ?_⟩
        · rw [List.forall_mem_cons]
          exact ⟨hne, hbefore⟩
        · rw [Table.modify, if_neg hne, hmodify, List.cons_append]

/-- Replacing the value of a field changes the object inside that field only. -/
theorem DiffersAt.replace {old new value : Json} {path : List String} {f : Json → Json}
    (hvalue : DiffersAt old new path value (f value)) {key : String} {object : Json}
    (hget : object.get? key = some value) :
    DiffersAt old new (key :: path) object (Search.replace key f object) := by
  cases object with
  | obj fields =>
      obtain ⟨before, after, hbefore, rfl, hmodify⟩ := exists_modify_eq hget f
      rw [Search.replace, hmodify]
      exact .field hbefore hvalue
  | _ => cases hget

/-! ## Narrowing any query -/

/-- The places of a body in which a query may match every document. -/
def queryPlaces : List (List String) :=
  [["query"], ["query", "filtered", "query"]]

/-- A query is an object with a field that matches every document. -/
def MatchesAll (query : Json) : Prop :=
  ∃ fields, query = .obj fields ∧ "match_all" ∈ fields.map Prod.fst

/-- A query that matches every document stands in a place of a body. -/
def MatchesAllAt (place : List String) (body : Json) : Prop :=
  ∃ query, body.at? place = some query ∧ MatchesAll query

theorem isMatchAll_iff {query : Json} : isMatchAll query = true ↔ MatchesAll query := by
  cases query with
  | obj fields =>
      rw [isMatchAll, Json.get?, ← Table.has, Table.has_iff_mem_keys]
      simp [MatchesAll]
  | _ => simp [isMatchAll, MatchesAll, Json.get?]

theorem matchesAllAt_query_iff {body query : Json} (hquery : body.get? "query" = some query) :
    MatchesAllAt ["query"] body ↔ isMatchAll query = true := by
  simp [MatchesAllAt, Json.at?, hquery, isMatchAll_iff]

theorem matchesAllAt_filtered_iff {body query : Json} (hquery : body.get? "query" = some query) :
    MatchesAllAt ["query", "filtered", "query"] body ↔
      ∃ inner, filteredQuery? query = some inner ∧ isMatchAll inner = true := by
  simp only [isMatchAll_iff]
  rw [MatchesAllAt, Json.at?, hquery]
  rfl

theorem isMatchAll_leaf (field : String) (value : Json) :
    isMatchAll (Fragment.leaf "term" field value) = false := rfl

theorem narrow?_of_isMatchAll {query : Json} (hquery : isMatchAll query = true) (term : Json) :
    narrow? query term = some term := by
  rw [narrow?, if_pos hquery]

theorem narrow?_of_filteredQuery? {query inner : Json} (hquery : isMatchAll query = false)
    (hfiltered : filteredQuery? query = some inner) (hinner : isMatchAll inner = true)
    (term : Json) :
    narrow? query term =
      some (replace "filtered" (replace "query" fun _ => term) query) := by
  simp [narrow?, hquery, hfiltered, hinner]

theorem narrow?_eq_none {query : Json} (hquery : isMatchAll query = false)
    (hfiltered : ∀ inner, filteredQuery? query = some inner → isMatchAll inner = false)
    (term : Json) : narrow? query term = none := by
  have hany : (filteredQuery? query).any isMatchAll = false := by
    cases hinner : filteredQuery? query with
    | none => rfl
    | some inner => exact hfiltered inner hinner
  simp [narrow?, hquery, hany]

/-! ## The two outcomes -/

/-- How a body is described whose query matches every document nowhere. -/
def reportedShape (body : Json) : String :=
  match body.get? "query" with
  | none => "body has no query"
  | some query => query.render

/-- Restricting records nothing and changes one place of the body, where a query
that matches every document becomes the condition on the country. -/
structure RestrictsAt (place : List String) (countryField country : String)
    (body restricted : Json) : Prop where
  leaves : (restrict countryField country).Leaves body restricted []
  differs : ∃ query, MatchesAll query ∧
    DiffersAt query (Fragment.leaf "term" countryField (.str country)) place body restricted

/-- Restricting raises one condition and leaves the body as it is. Lenient work
records the condition, strict work ends with it; the body stays in both modes. -/
def Refuses (countryField country : String) (body : Json) : Prop :=
  (restrict countryField country).Leaves body body [.unexpectedQuery (reportedShape body)]

theorem refuses_of_narrow?_eq_none {countryField country : String} {body query : Json}
    (hquery : body.get? "query" = some query)
    (hnarrow : narrow? query (Fragment.leaf "term" countryField (.str country)) = none) :
    Refuses countryField country body := by
  rw [Refuses, reportedShape, hquery]
  exact leaves_restrict_of_narrow?_eq_none hquery hnarrow

theorem refuses_of_no_query {countryField country : String} {body : Json}
    (hquery : body.get? "query" = none) : Refuses countryField country body := by
  rw [Refuses, reportedShape, hquery]
  exact leaves_restrict_of_no_query hquery

theorem refuses_of_not_matchesAllAt (countryField country : String) {body : Json}
    (hplaces : ∀ place ∈ queryPlaces, ¬ MatchesAllAt place body) :
    Refuses countryField country body := by
  cases hquery : body.get? "query" with
  | none => exact refuses_of_no_query hquery
  | some query =>
      have htop := hplaces ["query"] (by simp [queryPlaces])
      have hinside := hplaces ["query", "filtered", "query"] (by simp [queryPlaces])
      rw [matchesAllAt_query_iff hquery] at htop
      rw [matchesAllAt_filtered_iff hquery] at hinside
      apply refuses_of_narrow?_eq_none hquery
      apply narrow?_eq_none (Bool.eq_false_iff.mpr htop)
      intro inner hinner
      exact Bool.eq_false_iff.mpr fun hall => hinside ⟨inner, hinner, hall⟩

/-- A body whose query matches every document gets the condition on the country
for its query, and that matches every document in no place. -/
theorem restricts_query (countryField country : String) {body : Json}
    (hplace : MatchesAllAt ["query"] body) :
    ∃ restricted, RestrictsAt ["query"] countryField country body restricted ∧
      ∀ otherField other, Refuses otherField other restricted := by
  obtain ⟨query, hat, hmatches⟩ := hplace
  have hall := isMatchAll_iff.mpr hmatches
  have hquery : body.get? "query" = some query := by
    simpa [Json.at?] using hat
  refine ⟨_, ⟨leaves_restrict_of_narrow? hquery (narrow?_of_isMatchAll hall _), query, hmatches,
    ?_⟩, ?_⟩
  · apply DiffersAt.replace _ hquery
    apply DiffersAt.here
    rintro rfl
    cases hall
  · intro otherField other
    exact refuses_of_narrow?_eq_none (get?_replace_self hquery _)
      (narrow?_queryOver_leaf countryField (.str country) [] _)

/-- A body with a filtered query that matches every document gets the condition
inside of it, and what is around it stays a query that is not replaced. -/
theorem restricts_filtered (countryField country : String) {body : Json}
    (htop : ¬ MatchesAllAt ["query"] body)
    (hplace : MatchesAllAt ["query", "filtered", "query"] body) :
    ∃ restricted,
      RestrictsAt ["query", "filtered", "query"] countryField country body restricted ∧
      ∀ otherField other, Refuses otherField other restricted := by
  obtain ⟨inner, hat, hmatches⟩ := hplace
  have hall := isMatchAll_iff.mpr hmatches
  obtain ⟨query, hquery, hfiltered⟩ := Option.bind_eq_some_iff.mp hat
  obtain ⟨filtered, hfield, hrest⟩ := Option.bind_eq_some_iff.mp hfiltered
  have hinner : filtered.get? "query" = some inner := by
    simpa [Json.at?] using hrest
  rw [matchesAllAt_query_iff hquery, Bool.not_eq_true] at htop
  refine ⟨_, ⟨leaves_restrict_of_narrow? hquery
    (narrow?_of_filteredQuery? htop hfiltered hall _), inner, hmatches, ?_⟩, ?_⟩
  · apply DiffersAt.replace _ hquery
    apply DiffersAt.replace _ hfield
    apply DiffersAt.replace _ hinner
    apply DiffersAt.here
    rintro rfl
    cases hall
  · intro otherField other
    apply refuses_of_narrow?_eq_none (get?_replace_self hquery _)
    apply narrow?_eq_none
    · rw [isMatchAll, get?_replace_of_ne (by decide)]
      exact htop
    · intro found hfound
      rw [filteredQuery?, Json.at?, get?_replace_self hfield, Option.bind_some, Json.at?,
        get?_replace_self hinner] at hfound
      cases hfound
      exact isMatchAll_leaf countryField (.str country)

/-- Work that succeeds without conditions raises none. -/
theorem RestrictsAt.not_refuses {place : List String} {countryField country : String}
    {body restricted : Json} (hrestricts : RestrictsAt place countryField country body restricted) :
    ¬ Refuses countryField country body := by
  intro hrefuses
  have hruns := (hrestricts.leaves.lenient []).symm.trans (hrefuses.lenient [])
  cases (Prod.mk.inj hruns).2

end Search

open Search

/-- Restricting a body to a country either succeeds in one place or refuses the
body, in both modes. It succeeds exactly if a query that matches every document
stands in one of the two places, where it becomes the condition on the country;
the query as a whole goes first, and nothing else in the body changes. What has
been restricted is refused from then on, whatever the country and its field. A
body that is refused stays as it is, and one condition with its query is raised. -/
theorem restrict_all_or_nothing (countryField country : String) (body : Json) :
    ((∃ place ∈ queryPlaces, ∃ restricted,
        RestrictsAt place countryField country body restricted ∧
        (MatchesAllAt ["query"] body → place = ["query"]) ∧
        ∀ otherField other, Refuses otherField other restricted) ↔
      ∃ place ∈ queryPlaces, MatchesAllAt place body) ∧
    (Refuses countryField country body ↔ ∀ place ∈ queryPlaces, ¬ MatchesAllAt place body) := by
  -- each of the two outcomes from its side; they exclude each other
  have hsucceeds : (∃ place ∈ queryPlaces, MatchesAllAt place body) →
      ∃ place ∈ queryPlaces, ∃ restricted,
        RestrictsAt place countryField country body restricted ∧
        (MatchesAllAt ["query"] body → place = ["query"]) ∧
        ∀ otherField other, Refuses otherField other restricted := by
    rintro ⟨place, hplace, hall⟩
    by_cases htop : MatchesAllAt ["query"] body
    · obtain ⟨restricted, hrestricts, hagain⟩ := restricts_query countryField country htop
      exact ⟨["query"], by simp [queryPlaces], restricted, hrestricts, fun _ => rfl, hagain⟩
    · have hinside : place = ["query", "filtered", "query"] := by
        rcases List.mem_pair.mp hplace with rfl | rfl
        · exact absurd hall htop
        · rfl
      obtain ⟨restricted, hrestricts, hagain⟩ :=
        restricts_filtered countryField country htop (hinside ▸ hall)
      exact ⟨_, hinside ▸ hplace, restricted, hrestricts, fun h => absurd h htop, hagain⟩
  have hrefuses : (∀ place ∈ queryPlaces, ¬ MatchesAllAt place body) →
      Refuses countryField country body :=
    refuses_of_not_matchesAllAt countryField country
  refine ⟨⟨?_, hsucceeds⟩, ⟨?_, hrefuses⟩⟩
  · rintro ⟨_, _, _, hrestricts, -⟩
    by_contra hnone
    exact hrestricts.not_refuses (hrefuses (by simpa using hnone))
  · intro hrefused place hplace hall
    obtain ⟨_, _, _, hrestricts, -⟩ := hsucceeds ⟨place, hplace, hall⟩
    exact hrestricts.not_refuses hrefused

/-- Of two places, the query as a whole goes first. -/
example :
    (restrict "country" "SK").runIn .strict []
      (.obj [("query", .obj [("filtered", .obj [("query", Fragment.matchAll)]),
        ("match_all", .null)])]) =
      ((.ok (), .obj [("query", Fragment.leaf "term" "country" (.str "SK"))]), []) := rfl

/-- Strict work that refuses a body leaves it as it is. -/
example :
    (restrict "country" "SK").runIn .strict [] (.obj [("sort", .null)]) =
      ((.error (.unexpectedQuery "body has no query"), .obj [("sort", .null)]), []) := rfl

end TenderSearch
