import TenderSearch.Json.Basic

/-!
# Query fragments

The shapes of the search engine's query language that clauses compile to.
-/

namespace TenderSearch.Fragment

/-- A condition of a kind on one field. -/
def leaf (kind field : String) (body : Json) : Json :=
  .obj [(kind, .obj [(field, body)])]

def conjunction (parts : List Json) : Json :=
  .obj [("bool", .obj [("must", .arr parts)])]

def disjunction (parts : List Json) : Json :=
  .obj [("or", .arr parts)]

/-- Some nested document at a scope satisfies the query. -/
def nested (scope : String) (query : Json) : Json :=
  .obj [("nested", .obj [("path", .str scope), ("query", query)])]

def matchAll : Json :=
  .obj [("match_all", .obj [])]

/-- The documents of a query that satisfy a filter. -/
def filtered (query filter : Json) : Json :=
  .obj [("filtered", .obj [("filter", filter), ("query", query)])]

end TenderSearch.Fragment
