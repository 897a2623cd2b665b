import TenderSearch.Proofs.Search.Outcome
import TenderSearch.Search.Preset

/-!
# Bodies in one country

The query of a body is a first query, which matches every document, with the
fragments of the clauses around it. Restricting the body to a country replaces
the first query, and that comes to the same as adding the country as one more
condition. What has been restricted once has no part any more that matches
every document.
-/

namespace TenderSearch

universe u

namespace Query

variable {Doc : Type u}

mutual

/-- Whether a document satisfies a query of which only the boolean structure is
known. All other fragments may mean anything. -/
def HoldsWith (others : Json → Doc → Prop) : Json → Doc → Prop
  | .obj [("match_all", .obj [])], _ => True
  | .obj [("bool", .obj [("must", .arr parts)])], doc => HoldsAllWith others parts doc
  | .obj [("filtered", .obj [("filter", filter), ("query", query)])], doc =>
      HoldsWith others query doc ∧ HoldsWith others filter doc
  | query, doc => others query doc

def HoldsAllWith (others : Json → Doc → Prop) : List Json → Doc → Prop
  | [], _ => True
  | query :: rest, doc => HoldsWith others query doc ∧ HoldsAllWith others rest doc

end

variable (others : Json → Doc → Prop) (doc : Doc)

theorem holdsAllWith_iff (queries : List Json) :
    HoldsAllWith others queries doc ↔ ∀ query ∈ queries, HoldsWith others query doc := by
  induction queries with
  | nil => simp [HoldsAllWith]
  | cons query rest ih => simp [HoldsAllWith, ih]

@[simp] theorem holdsWith_matchAll : HoldsWith others Fragment.matchAll doc := by
  simp [Fragment.matchAll, HoldsWith]

@[simp] theorem holdsWith_conjunction (parts : List Json) :
    HoldsWith others (Fragment.conjunction parts) doc ↔
      ∀ part ∈ parts, HoldsWith others part doc := by
  rw [Fragment.conjunction, HoldsWith, holdsAllWith_iff]

@[simp] theorem holdsWith_filtered (query filter : Json) :
    HoldsWith others (Fragment.filtered query filter) doc ↔
      HoldsWith others query doc ∧ HoldsWith others filter doc := by
  rw [Fragment.filtered, HoldsWith]

end Query

open Query Report

namespace Search

/-- A first query of which only the documents count that satisfy all fragments. -/
def queryOver (first : Json) : List Json → Json
  | [] => first
  | [fragment] => Fragment.filtered first fragment
  | fragments => Fragment.filtered first (Fragment.conjunction fragments)

theorem queryOf_eq (fragments : List Json) :
    queryOf fragments = queryOver Fragment.matchAll fragments := by
  match fragments with
  | [] => rfl
  | [_] => rfl
  | _ :: _ :: _ => rfl

theorem holdsWith_queryOver {Doc : Type u} (others : Json → Doc → Prop) (first : Json)
    (fragments : List Json) (doc : Doc) :
    HoldsWith others (queryOver first fragments) doc ↔
      HoldsWith others first doc ∧ ∀ fragment ∈ fragments, HoldsWith others fragment doc := by
  match fragments with
  | [] => simp [queryOver]
  | [fragment] => simp [queryOver]
  | first :: second :: rest => simp [queryOver]

theorem holdsWith_inCountry {Doc : Type u} (others : Json → Doc → Prop) {country : String}
    (hcountry : country ≠ "") (query : Json) (countryField : String) (doc : Doc) :
    HoldsWith others (Preset.inCountry query countryField (some country)) doc ↔
      HoldsWith others query doc ∧
        HoldsWith others (Fragment.leaf "term" countryField (.str country)) doc := by
  simp [Preset.inCountry, hcountry]

/-! ## Narrowing a query -/

/-- The part that matches every document is found wherever a body has it. -/
theorem narrow?_queryOver_matchAll (fragments : List Json) (term : Json) :
    narrow? (queryOver Fragment.matchAll fragments) term = some (queryOver term fragments) := by
  match fragments with
  | [] => rfl
  | [_] => rfl
  | _ :: _ :: _ => rfl

/-- A condition on one field does not match every document, whatever the field
is called. -/
theorem narrow?_queryOver_leaf (field : String) (value : Json) (fragments : List Json)
    (term : Json) :
    narrow? (queryOver (Fragment.leaf "term" field value) fragments) term = none := by
  match fragments with
  | [] => rfl
  | [_] => rfl
  | _ :: _ :: _ => rfl

theorem filter_queryOver_leaf (field : String) (value : Json) (fragments : List Json) :
    (queryOver (Fragment.leaf "term" field value) fragments).at? ["filtered", "filter"] =
      (queryOver Fragment.matchAll fragments).at? ["filtered", "filter"] := by
  match fragments with
  | [] => rfl
  | [_] => rfl
  | _ :: _ :: _ => rfl

/-! ## Restricting a body -/

theorem get?_replace_self {key : String} {body value : Json} (hget : body.get? key = some value)
    (f : Json → Json) : (replace key f body).get? key = some (f value) := by
  cases body with
  | obj fields =>
      rw [replace, Json.get?, Table.get?_modify_self]
      exact congrArg (Option.map f) hget
  | _ => cases hget

theorem get?_replace_of_ne {key other : String} (hne : key ≠ other) (f : Json → Json)
    (body : Json) : (replace key f body).get? other = body.get? other := by
  cases body with
  | obj fields => exact Table.get?_modify_of_ne hne f fields
  | _ => rfl

/-- The body of a search in a country. -/
def assembledIn (setup : Setup) (country : String) (search : Search) (fragments : List Json) :
    Json :=
  replace "query"
    (fun _ => queryOver (Fragment.leaf "term" setup.countryField (.str country)) fragments)
    (search.assembled setup fragments)

theorem assembledIn_query (setup : Setup) (country : String) (search : Search)
    (fragments : List Json) :
    (assembledIn setup country search fragments).get? "query" =
      some (queryOver (Fragment.leaf "term" setup.countryField (.str country)) fragments) :=
  get?_replace_self (search.assembled_query setup fragments) _

/-- Restricting the body of a search raises nothing. -/
theorem yields_bodyIn_country (setup : Setup) {country : String} (hcountry : country ≠ "")
    (search : Search) :
    Yields (search.bodyIn setup (some country))
      (assembledIn setup country search (fragments setup.scopes search.filters))
      (faults search.filters) := by
  have hrestrict := leaves_restrict_of_narrow? (search.assembled_query setup _)
    ((congrArg (narrow? · (Fragment.leaf "term" setup.countryField (.str country)))
      (queryOf_eq (fragments setup.scopes search.filters))).trans
        (narrow?_queryOver_matchAll _ _))
  have hbody := (search.yields_body setup).bind hrestrict.on
  rw [List.append_nil] at hbody
  simp only [bodyIn, if_neg hcountry]
  exact hbody

/-- Clauses do not raise conditions about the query of a body. -/
theorem unexpectedQuery_not_mem_faults (shape : String) (filters : List Clause) :
    Condition.unexpectedQuery shape ∉ faults filters := by
  simp only [faults, List.mem_flatMap, Clause.faults, List.mem_filterMap, not_exists, not_and]
  intro clause _ part _ hfault
  unfold Clause.fault? at hfault
  repeat' split at hfault
  all_goals cases hfault

end Search

/-- Where a search has a body, it has one in every country, and the same
conditions are recorded; none of them is about the query. Only the query of the
body changes, without its filter, and it holds of the documents of which the
plain query with the country added to it holds, whatever the fragments mean.
Restricting the body once more is always reported and changes nothing, in both
modes. -/
theorem bodyIn_restricts_body {Doc : Type u} (others : Json → Doc → Prop)
    (setup : Search.Setup) (search : Search) (mode : Mode) (earlier : List Condition)
    {country : String} (hcountry : country ≠ "") {plain : Json} {issues : List Condition}
    (hplain : runIn mode earlier (search.body setup) = (.ok plain, issues)) :
    (∀ shape, .unexpectedQuery shape ∈ issues → .unexpectedQuery shape ∈ earlier) ∧
    ∃ restricted plainQuery query,
      runIn mode earlier (search.bodyIn setup (some country)) = (.ok restricted, issues) ∧
      (∀ key, key ≠ "query" → restricted.get? key = plain.get? key) ∧
      plain.get? "query" = some plainQuery ∧ restricted.get? "query" = some query ∧
      query.at? ["filtered", "filter"] = plainQuery.at? ["filtered", "filter"] ∧
      (∀ doc, HoldsWith others query doc ↔
        HoldsWith others (Preset.inCountry plainQuery setup.countryField (some country)) doc) ∧
      ∀ again later,
        (Search.restrict setup.countryField again).runIn .lenient later restricted =
          ((.ok (), restricted), later ++ [.unexpectedQuery query.render]) ∧
        (Search.restrict setup.countryField again).runIn .strict later restricted =
          ((.error (.unexpectedQuery query.render), restricted), later) := by
  have hbody := search.yields_body setup
  obtain ⟨rfl, hrestricted⟩ :=
    hbody.run_eq_ok (search.yields_bodyIn_country setup hcountry) hplain
  refine ⟨?_, _, _, _, hrestricted, ?_, search.assembled_query setup _,
    search.assembledIn_query setup country _, ?_, ?_, ?_⟩
  · intro shape hshape
    exact (hbody.mem_of_run hplain hshape).resolve_right
      (Search.unexpectedQuery_not_mem_faults shape search.filters)
  · intro key hkey
    exact Search.get?_replace_of_ne (Ne.symm hkey) _ _
  · rw [Search.queryOf_eq]
    exact Search.filter_queryOver_leaf setup.countryField (.str country) _
  · intro doc
    rw [Search.holdsWith_queryOver, Search.holdsWith_inCountry others hcountry,
      Search.queryOf_eq, Search.holdsWith_queryOver]
    simp only [holdsWith_matchAll, true_and, and_comm]
  · intro again later
    have hagain := Search.leaves_restrict_of_narrow?_eq_none
      (search.assembledIn_query setup country (Search.fragments setup.scopes search.filters))
      (Search.narrow?_queryOver_leaf setup.countryField (.str country) _
        (Fragment.leaf "term" setup.countryField (.str again)))
    exact ⟨hagain.lenient later, hagain.strict later⟩

/-- A search with a good clause and one of an unknown kind, in a country field
that is called like the part of the query that is replaced. -/
theorem bodyIn_restricts_body_lenient :
    "SK" ≠ "" ∧
    runIn .lenient [] (Search.body { Search.Setup.standard with countryField := "match_all" }
      ⟨none, [.plain .term "buyers.name" [.str "City"], .plain (.unsupported "geo") "x" []],
        none⟩) =
      (.ok (.obj [
        ("query", Fragment.filtered Fragment.matchAll (Fragment.nested "buyers"
          (Fragment.conjunction [Fragment.leaf "term" "buyers.name" (.str "City")]))),
        ("sort", .obj [("modified", .obj [("order", .str "desc")])])]),
        [.unsupportedClause "geo"]) ∧
    ∃ restricted query,
      runIn .lenient []
        (Search.bodyIn { Search.Setup.standard with countryField := "match_all" } (some "SK")
          ⟨none, [.plain .term "buyers.name" [.str "City"], .plain (.unsupported "geo") "x" []],
            none⟩) = (.ok restricted, [.unsupportedClause "geo"]) ∧
      restricted.get? "query" = some query ∧
      ∀ again, (Search.restrict "match_all" again).runIn .strict [] restricted =
        ((.error (.unexpectedQuery query.render), restricted), []) := by
  refine ⟨by decide, rfl, ?_⟩
  obtain ⟨-, restricted, _, query, hrun, -, -, hquery, -, -, hagain⟩ :=
    bodyIn_restricts_body (fun query (doc : Json → Prop) => doc query)
      { Search.Setup.standard with countryField := "match_all" }
      ⟨none, [.plain .term "buyers.name" [.str "City"], .plain (.unsupported "geo") "x" []], none⟩
      .lenient [] (show "SK" ≠ "" by decide) rfl
  exact ⟨restricted, query, hrun, hquery, fun again => (hagain again []).2⟩

end TenderSearch
