import TenderSearch.Aggregation.Request
import TenderSearch.Clause.Compile
import TenderSearch.Edit
import TenderSearch.Search.Basic

/-!
# Search bodies

The body of a search request holds a query, a sort order and a map of
aggregations. Date clauses do not filter: the last of them decides the sort
order. A body can be restricted to one country afterwards, by replacing the
part of its query that matches every document.
-/

namespace TenderSearch.Search

/-- What the bodies of all searches share. -/
structure Setup where
  scopes : ScopeList
  defaultSortField : String
  defaultSize : Nat
  countryField : String
deriving DecidableEq

def Setup.standard : Setup :=
  { scopes := ScopeList.standard, defaultSortField := "modified", defaultSize := 5,
    countryField := "country" }

/-- Sorts on a field, which may lie in a nested scope. -/
def sortOn (field : String) (ascending : Bool) (scope : Option String) : Json :=
  let order := ("order", Json.str (if ascending then "asc" else "desc"))
  .obj [(field, .obj (match scope with
    | some path => [("nested_path", .str path), order]
    | none => [order]))]

/-- The sort order without regard to date clauses. -/
def requestedSort (setup : Setup) (sort : Option SortOrder) : Json :=
  match sort with
  | some { field := some field, ascending } =>
      if field = "" then sortOn setup.defaultSortField false none
      else sortOn field ascending (setup.scopes.resolve field)
  | _ => sortOn setup.defaultSortField false none

def dateField? (filters : List Clause) : Option String :=
  ((filters.filter fun clause => clause.kind = .date).getLast?).map Clause.field

def sortBody (setup : Setup) (search : Search) : Json :=
  match dateField? search.filters with
  | some field => sortOn field false none
  | none => requestedSort setup search.sort

/-- The fragments of the clauses that are not date clauses. -/
def compileFilters (scopes : ScopeList) : List Clause → Report (List Json)
  | [] => return []
  | clause :: rest =>
      if clause.kind = .date then compileFilters scopes rest
      else do
        let fragment ← clause.compile scopes
        let fragments ← compileFilters scopes rest
        return fragment.toList ++ fragments

/-- The query for fragments that all have to hold. -/
def queryOf : List Json → Json
  | [] => Fragment.matchAll
  | [fragment] => Fragment.filtered Fragment.matchAll fragment
  | fragments => Fragment.filtered Fragment.matchAll (Fragment.conjunction fragments)

/-- The map of aggregations, unless none are asked for. -/
def aggregationsBody? (setup : Setup) : Option (List Aggregation) → Option Json
  | some (first :: rest) =>
      some (.obj (Aggregation.request setup.scopes setup.defaultSize (first :: rest)))
  | _ => none

/-- The body of a search whose clauses compile to the given fragments. -/
def assembled (setup : Setup) (search : Search) (fragments : List Json) : Json :=
  let parts := [("query", queryOf fragments), ("sort", sortBody setup search)]
  .obj (match aggregationsBody? setup search.aggregations with
    | some aggregations => ("aggregations", aggregations) :: parts
    | none => parts)

def body (setup : Setup) (search : Search) : Report Json := do
  let fragments ← compileFilters setup.scopes search.filters
  return assembled setup search fragments

def isMatchAll (query : Json) : Bool :=
  (query.get? "match_all").isSome

def filteredQuery? (query : Json) : Option Json :=
  query.at? ["filtered", "query"]

/-- Replaces the value of a field, where there is one. -/
def replace (key : String) (f : Json → Json) : Json → Json
  | .obj fields => .obj (Table.modify key f fields)
  | value => value

/-- The query with the part that matches every document replaced. -/
def narrow? (query term : Json) : Option Json :=
  if isMatchAll query then some term
  else if (filteredQuery? query).any isMatchAll then
    some (replace "filtered" (replace "query" fun _ => term) query)
  else none

/-- Restricts a body to one country where it stands. A body whose query matches
every document neither at the top nor inside a filtered query is left as it is. -/
def restrict (countryField country : String) : Edit Json Unit := do
  match (← get).get? "query" with
  | none => Edit.raise (.unexpectedQuery "body has no query")
  | some query =>
      match narrow? query (Fragment.leaf "term" countryField (.str country)) with
      | some narrowed => modify (replace "query" fun _ => narrowed)
      | none => Edit.raise (.unexpectedQuery query.render)

/-- The body of a search in one country; no country and the empty one do not
restrict. -/
def bodyIn (setup : Setup) (country : Option String) (search : Search) : Report Json := do
  let plain ← search.body setup
  match country with
  | some country =>
      if country = "" then return plain else (restrict setup.countryField country).on plain
  | none => return plain

end TenderSearch.Search
