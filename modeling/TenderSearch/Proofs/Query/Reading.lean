import TenderSearch.Clause.Fragment

/-!
# Queries as predicates on documents

A query is read as a condition on a document once it is known what the
conditions on single fields mean and which nested documents a document has.
Everything between them is boolean.
-/

namespace TenderSearch.Query

universe u

/-- What conditions on single fields mean, and the nested documents at a scope. -/
structure Interpretation (Doc : Type u) where
  /-- Whether a document satisfies a condition of a kind on a field. -/
  leaf : (kind field : String) → (body : Json) → Doc → Prop
  /-- Whether a document has another one nested at a scope. -/
  nests : (scope : String) → Doc → Doc → Prop

namespace Interpretation

variable {Doc : Type u} (reading : Interpretation Doc)

/-- A condition on a document, or on one nested in it if there is a scope. -/
def Within (scope : Option String) (condition : Doc → Prop) (doc : Doc) : Prop :=
  match scope with
  | some scope => ∃ inner, reading.nests scope doc inner ∧ condition inner
  | none => condition doc

theorem within_congr {scope : Option String} {first second : Doc → Prop}
    (heq : ∀ doc, first doc ↔ second doc) (doc : Doc) :
    reading.Within scope first doc ↔ reading.Within scope second doc := by
  rw [funext fun doc => propext (heq doc)]

end Interpretation

/-- The kinds of conditions on single fields. -/
def leafKinds : List String :=
  ["match", "match_phrase_prefix", "range", "term", "terms"]

variable {Doc : Type u}

mutual

/-- Whether a document satisfies a query. -/
def Holds (reading : Interpretation Doc) : Json → Doc → Prop
  | .obj [("match_all", _)], _ => True
  | .obj [("bool", .obj [("must", .arr parts)])], doc => HoldsAll reading parts doc
  | .obj [("or", .arr parts)], doc => HoldsAny reading parts doc
  | .obj [("nested", .obj [("path", .str scope), ("query", query)])], doc =>
      ∃ inner, reading.nests scope doc inner ∧ Holds reading query inner
  | .obj [("filtered", .obj [("filter", filter), ("query", query)])], doc =>
      Holds reading query doc ∧ Holds reading filter doc
  | .obj [(kind, .obj [(field, body)])], doc =>
      kind ∈ leafKinds ∧ reading.leaf kind field body doc
  | _, _ => False

def HoldsAll (reading : Interpretation Doc) : List Json → Doc → Prop
  | [], _ => True
  | query :: rest, doc => Holds reading query doc ∧ HoldsAll reading rest doc

def HoldsAny (reading : Interpretation Doc) : List Json → Doc → Prop
  | [], _ => False
  | query :: rest, doc => Holds reading query doc ∨ HoldsAny reading rest doc

end

variable (reading : Interpretation Doc) (doc : Doc)

theorem holdsAll_iff (queries : List Json) :
    HoldsAll reading queries doc ↔ ∀ query ∈ queries, Holds reading query doc := by
  induction queries with
  | nil => simp [HoldsAll]
  | cons query rest ih => simp [HoldsAll, ih]

theorem holdsAny_iff (queries : List Json) :
    HoldsAny reading queries doc ↔ ∃ query ∈ queries, Holds reading query doc := by
  induction queries with
  | nil => simp [HoldsAny]
  | cons query rest ih => simp [HoldsAny, ih]

@[simp] theorem holds_matchAll : Holds reading Fragment.matchAll doc := by
  simp [Fragment.matchAll, Holds]

@[simp] theorem holds_conjunction (parts : List Json) :
    Holds reading (Fragment.conjunction parts) doc ↔
      ∀ part ∈ parts, Holds reading part doc := by
  rw [Fragment.conjunction, Holds, holdsAll_iff]

@[simp] theorem holds_disjunction (parts : List Json) :
    Holds reading (Fragment.disjunction parts) doc ↔
      ∃ part ∈ parts, Holds reading part doc := by
  rw [Fragment.disjunction, Holds, holdsAny_iff]

@[simp] theorem holds_nested (scope : String) (query : Json) :
    Holds reading (Fragment.nested scope query) doc ↔
      ∃ inner, reading.nests scope doc inner ∧ Holds reading query inner := by
  rw [Fragment.nested, Holds]

@[simp] theorem holds_filtered (query filter : Json) :
    Holds reading (Fragment.filtered query filter) doc ↔
      Holds reading query doc ∧ Holds reading filter doc := by
  rw [Fragment.filtered, Holds]

theorem holds_leaf {kind : String} (hkind : kind ∈ leafKinds) (field : String) (body : Json) :
    Holds reading (Fragment.leaf kind field body) doc ↔
      reading.leaf kind field body doc := by
  simp only [leafKinds, List.mem_cons, List.not_mem_nil, or_false] at hkind
  rcases hkind with rfl | rfl | rfl | rfl | rfl <;> simp [Fragment.leaf, Holds, leafKinds]

end TenderSearch.Query
