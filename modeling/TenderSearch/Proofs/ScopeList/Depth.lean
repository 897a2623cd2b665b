import Mathlib.Data.List.Infix
import TenderSearch.ScopeList

/-!
# The deepest scope of a field

The scopes of one field are starts of the same path, so they lie inside each
other and the longest of them is the deepest one. Trying scopes in the order of
a list finds it for every field exactly if no scope is listed behind a scope
that it lies below.
-/

namespace TenderSearch.ScopeList

/-- A path lies below a scope if it goes on behind the scope with a dot. -/
def Below (scope path : String) : Prop :=
  ∃ rest, path = scope ++ "." ++ rest

theorem below_iff_contains {scope path : String} :
    Below scope path ↔ contains scope path = true := by
  rw [contains_iff]
  constructor
  · rintro ⟨rest, rfl⟩
    exact ⟨rest.toList, by simp⟩
  · rintro ⟨rest, hpath⟩
    refine ⟨String.ofList rest, String.toList_injective ?_⟩
    simp [← hpath]

instance (scope path : String) : Decidable (Below scope path) :=
  decidable_of_iff _ below_iff_contains.symm

theorem below_iff_isPrefix {scope path : String} :
    Below scope path ↔ scope.toList ++ ['.'] <+: path.toList := by
  rw [below_iff_contains, contains, List.isPrefixOf_iff_prefix]

theorem Below.isPrefix {scope path : String} (hbelow : Below scope path) :
    scope.toList <+: path.toList :=
  (List.prefix_append _ _).trans (below_iff_isPrefix.mp hbelow)

theorem below_dotted (scope : String) : Below scope (scope ++ ".") :=
  ⟨"", by simp⟩

theorem Below.trans {outer scope path : String} (houter : Below outer scope)
    (hscope : Below scope path) : Below outer path :=
  below_iff_isPrefix.mpr ((below_iff_isPrefix.mp houter).trans hscope.isPrefix)

/-- The scopes of one path lie inside each other, the longer below the shorter. -/
theorem Below.below_of_length_lt {scope other path : String} (hscope : Below scope path)
    (hother : Below other path) (hlength : scope.length < other.length) :
    Below scope other := by
  apply below_iff_isPrefix.mpr
  apply List.prefix_of_prefix_length_le (below_iff_isPrefix.mp hscope) hother.isPrefix
  simpa [String.length_toList] using Nat.succ_le_of_lt hlength

/-- Scopes of one path that are equally long are the same. -/
theorem Below.eq_of_length_eq {scope other path : String} (hscope : Below scope path)
    (hother : Below other path) (hlength : scope.length = other.length) : scope = other := by
  have hlist : scope.toList.length = other.toList.length := by
    simpa [String.length_toList] using hlength
  apply String.toList_injective
  exact (List.prefix_of_prefix_length_le hscope.isPrefix hother.isPrefix hlist.le).eq_of_length hlist

theorem Below.length_le_of_dotted {other scope : String} (hother : Below other (scope ++ ".")) :
    other.length ≤ scope.length := by
  simpa [String.length_toList] using (below_iff_isPrefix.mp hother).length_le

/-- The longest of the known scopes that a field lies below, if there is any. -/
def IsDeepest (scopes : ScopeList) (field : String) : Option String → Prop
  | none => ∀ scope ∈ scopes, ¬ Below scope field
  | some scope => scope ∈ scopes ∧ Below scope field ∧
      ∀ other ∈ scopes, Below other field → other.length ≤ scope.length

/-- Where a scope stands in the list for the first time, no scope stands before
it that it lies below. -/
def DeepestFirst (scopes : ScopeList) : Prop :=
  ∀ before scope after, scopes = before ++ scope :: after → scope ∉ before →
    ∀ earlier ∈ before, ¬ Below earlier scope

theorem deepestFirst_of_pairwise {scopes : ScopeList}
    (hscopes : scopes.Pairwise fun earlier later => ¬ Below earlier later) :
    DeepestFirst scopes := by
  rintro before scope after rfl _ earlier hearlier
  exact (List.pairwise_append.mp hscopes).2.2 earlier hearlier scope List.mem_cons_self

/-- What is resolved is the first scope of the list that the field lies below. -/
theorem resolve_eq_some_iff {scopes : ScopeList} {field scope : String} :
    resolve scopes field = some scope ↔
      Below scope field ∧ ∃ before after, scopes = before ++ scope :: after ∧
        ∀ earlier ∈ before, ¬ Below earlier field := by
  simp only [resolve, List.find?_eq_some_iff_append, below_iff_contains, Bool.not_eq_true,
    Bool.not_eq_eq_eq_not, Bool.not_true]

theorem resolve_eq_none_iff {scopes : ScopeList} {field : String} :
    resolve scopes field = none ↔ ∀ scope ∈ scopes, ¬ Below scope field := by
  simp only [resolve, List.find?_eq_none, below_iff_contains]

theorem resolve_append (first second : ScopeList) (field : String) :
    resolve (first ++ second) field = (resolve first field).or (resolve second field) :=
  List.find?_append

theorem isDeepest_resolve {scopes : ScopeList} (hscopes : DeepestFirst scopes)
    (field : String) : IsDeepest scopes field (resolve scopes field) := by
  cases hresolve : resolve scopes field with
  | none => exact resolve_eq_none_iff.mp hresolve
  | some scope =>
      obtain ⟨hscope, before, after, rfl, hbefore⟩ := resolve_eq_some_iff.mp hresolve
      refine ⟨List.mem_append_right _ List.mem_cons_self, hscope, ?_⟩
      intro other hmem hother
      by_contra hlength
      have hbelow : Below scope other := hscope.below_of_length_lt hother (not_le.mp hlength)
      have hne : other ≠ scope := by
        rintro rfl
        exact hlength le_rfl
      have hnew : other ∉ before := fun hearlier => hbefore other hearlier hother
      have hafter : other ∈ after := by
        simpa [hnew, hne] using hmem
      -- the deeper scope stands for the first time behind the one that was found
      obtain ⟨between, rest, rfl, hbetween⟩ := List.eq_append_cons_of_mem hafter
      apply hscopes (before ++ scope :: between) other rest (by simp) ?_ scope (by simp) hbelow
      simp [hnew, hne, hbetween]

/-- If the deepest scope is always found, then also for the path that ends with
the dot behind a scope, which lies in no longer one. -/
theorem deepestFirst_of_isDeepest {scopes : ScopeList}
    (hresolve : ∀ field, IsDeepest scopes field (resolve scopes field)) :
    DeepestFirst scopes := by
  rintro before scope after rfl hnew earlier hearlier hbelow
  have hfield : Below scope (scope ++ ".") := below_dotted scope
  cases hfirst : resolve before (scope ++ ".") with
  | none =>
      exact resolve_eq_none_iff.mp hfirst earlier hearlier (hbelow.trans hfield)
  | some first =>
      have hdeepest := hresolve (scope ++ ".")
      rw [resolve_append, hfirst, Option.some_or] at hdeepest
      obtain ⟨-, hbelowFirst, hlongest⟩ := hdeepest
      have hle : scope.length ≤ first.length :=
        hlongest scope (List.mem_append_right _ List.mem_cons_self) hfield
      have heq : first = scope :=
        hbelowFirst.eq_of_length_eq hfield (le_antisymm hbelowFirst.length_le_of_dotted hle)
      -- the scope that was found stands before the place of the first occurrence
      exact hnew (heq ▸ List.mem_of_find?_eq_some hfirst)

/-- Resolving finds the longest scope that a field lies below, and none exactly
where there is none, for every field if and only if no scope is listed for the
first time behind one that it lies below. The scopes of procurement documents
are listed in this way. -/
theorem resolve_isDeepest_iff :
    (∀ scopes : ScopeList,
      (∀ field, IsDeepest scopes field (resolve scopes field)) ↔ DeepestFirst scopes) ∧
    DeepestFirst standard ∧ ∀ field, IsDeepest standard field (resolve standard field) := by
  have hstandard : DeepestFirst standard := deepestFirst_of_pairwise (by decide)
  refine ⟨?_, hstandard, isDeepest_resolve hstandard⟩
  intro scopes
  exact ⟨deepestFirst_of_isDeepest, isDeepest_resolve⟩

-- a scope hides those below it that are listed behind it
example : resolve ["lots", "lots.bids"] "lots.bids.price" = some "lots" := rfl

end TenderSearch.ScopeList
