import Mathlib.Tactic.ByContra
import TenderSearch.Proofs.Catalog.Reading
import TenderSearch.Proofs.Tree.Branches

/-!
# What fragments ask for after an injection

An injection into regular fragments keeps what each of them asks for, and the
fragments inside stay where they are, unless a layer comes between. So a path leads
to the same place as before if nothing on its way is nested at the scope.
-/

namespace TenderSearch.Catalog

open Json TenderSearch.Tree

variable {scope : String} {filter : Json}

/-! ## Kinds and children -/

theorem childMap_leaf {kind : String} (hkind : kind ≠ "aggregations") (body : Json) :
    childMap (.obj [(kind, body)]) = [] := by
  simp [childMap, get?, Table.get?, hkind]

theorem childMap_branch (inner : Fields) (kind : String) (body : Json) :
    childMap (.obj [("aggregations", .obj inner), (kind, body)]) = inner := rfl

theorem answerKind?_branch (children : Json) (kind : String) (body : Json) :
    answerKind? (.obj [("aggregations", children), (kind, body)]) =
      answerKind? (.obj [(kind, body)]) := rfl

theorem regular_of_child? {fragment child : Json} (hfragment : Regular scope fragment)
    {key : String} (hchild : child? key fragment = some child) : Regular scope child := by
  cases hfragment with
  | leaf hkind hbody =>
      rw [child?, childMap_leaf hkind] at hchild
      cases hchild
  | branch _ _ _ hinner => exact hinner _ (Table.mem_of_get? hchild)

/-- What is nested asks for a layer. -/
theorem answerKind?_of_isNestedAt {fragment : Json} (hfragment : Regular scope fragment)
    (hnested : isNestedAt scope fragment = true) : answerKind? fragment = some .layer := by
  cases hfragment with
  | leaf =>
      obtain rfl := kind_eq_of_isNestedAt hnested
      rfl
  | branch =>
      rw [isNestedAt_branch] at hnested
      obtain rfl := kind_eq_of_isNestedAt hnested
      rfl

theorem isNestedAt_laidInside {fragment : Json} (hfragment : Regular scope fragment) :
    isNestedAt scope (laidInside scope filter fragment) = isNestedAt scope fragment := by
  cases hfragment with
  | leaf hkind => rw [laidInside_leaf hkind]
  | branch hkind => rw [laidInside_branch hkind, isNestedAt_branch, isNestedAt_branch]

theorem laid_of_not_nested {fragment : Json} (hfragment : Regular scope fragment)
    (hnested : isNestedAt scope fragment = false) (key : String) :
    laid scope filter key fragment = laidInside scope filter fragment :=
  wrapValue_of_not_nested scope filter ((isNestedAt_laidInside hfragment).trans hnested) key

theorem answerKind?_laidInside {fragment : Json} (hfragment : Regular scope fragment) :
    answerKind? (laidInside scope filter fragment) = answerKind? fragment := by
  cases hfragment with
  | leaf hkind => rw [laidInside_leaf hkind]
  | branch hkind => rw [laidInside_branch hkind, answerKind?_branch, answerKind?_branch]

theorem childMap_laidInside {fragment : Json} (hfragment : Regular scope fragment) :
    childMap (laidInside scope filter fragment) =
      laidMap scope filter (childMap fragment) := by
  cases hfragment with
  | leaf hkind =>
      rw [laidInside_leaf hkind, childMap_leaf hkind]
      rfl
  | branch hkind => rw [laidInside_branch hkind, childMap_branch, childMap_branch]

theorem child?_laidInside {fragment : Json} (hfragment : Regular scope fragment) (key : String) :
    child? key (laidInside scope filter fragment) =
      (child? key fragment).map (laid scope filter key) := by
  rw [child?, childMap_laidInside hfragment, get?_laidMap, child?]

/-- A fragment that is nested at the scope has one child after the injection: the
layer that its own children have moved to. -/
theorem laid_of_nested {fragment : Json} (hfragment : Regular scope fragment)
    (hnested : isNestedAt scope fragment = true) (key : String) :
    answerKind? (laid scope filter key fragment) = some .layer ∧
      ∃ layer, childMap (laid scope filter key fragment) = [(key ++ "_filter", layer)] ∧
        answerKind? layer = some .layer ∧
        childMap layer = laidMap scope filter (childMap fragment) := by
  cases hfragment with
  | @leaf kind body hkind =>
      obtain rfl := kind_eq_of_isNestedAt hnested
      rw [laid, laidInside_leaf hkind, wrapValue_leaf hnested]
      exact ⟨rfl, .obj [("filter", filter)], rfl, rfl, rfl⟩
  | @branch inner kind body hkind =>
      rw [isNestedAt_branch] at hnested
      obtain rfl := kind_eq_of_isNestedAt hnested
      rw [laid, laidInside_branch hkind, wrapValue_branch hnested]
      exact ⟨rfl, .obj [("aggregations", .obj (laidMap scope filter inner)), ("filter", filter)],
        rfl, rfl, rfl⟩

/-- An injection keeps what a fragment asks for. -/
theorem answerKind?_laid {fragment : Json} (hfragment : Regular scope fragment) (key : String) :
    answerKind? (laid scope filter key fragment) = answerKind? fragment := by
  cases hnested : isNestedAt scope fragment with
  | false => rw [laid_of_not_nested hfragment hnested, answerKind?_laidInside hfragment]
  | true =>
      rw [(laid_of_nested hfragment hnested key).1, answerKind?_of_isNestedAt hfragment hnested]

/-! ## Paths -/

variable (scope) in
/-- No fragment on the way of a path is nested at the scope; the first and the last
do not count. -/
def clearWay : List String → Json → Bool
  | key :: next :: rest, fragment => (child? key fragment).all fun child =>
      !isNestedAt scope child && clearWay (next :: rest) child
  | _, _ => true

variable (filter) in
/-- A clear path leads to the same place after an injection. -/
theorem target?_laidInside {path : List String} {fragment target : Json}
    (hfragment : Regular scope fragment) (hclear : clearWay scope path fragment = true)
    (htarget : target? path fragment = some target) :
    Regular scope target ∧ ∃ found, target? path (laidInside scope filter fragment) = some found ∧
      answerKind? found = answerKind? target ∧
      (isNestedAt scope target = false → found = laidInside scope filter target) := by
  induction path generalizing fragment with
  | nil =>
      cases htarget
      exact ⟨hfragment, _, rfl, answerKind?_laidInside hfragment, fun _ => rfl⟩
  | cons key rest ih =>
      rw [target?] at htarget
      split at htarget
      next hkind =>
        obtain ⟨child, hchild, htarget⟩ := Option.bind_eq_some_iff.mp htarget
        have hregular := regular_of_child? hfragment hchild
        have hstep : target? (key :: rest) (laidInside scope filter fragment) =
            target? rest (laid scope filter key child) := by
          rw [target?, answerKind?_laidInside hfragment, if_pos hkind,
            child?_laidInside hfragment, hchild]
          rfl
        rw [hstep]
        cases rest with
        | nil =>
            cases htarget
            exact ⟨hregular, _, rfl, answerKind?_laid hregular key,
              fun hnested => laid_of_not_nested hregular hnested key⟩
        | cons next rest =>
            simp only [clearWay, hchild, Option.all_some, Bool.and_eq_true,
              Bool.not_eq_true'] at hclear
            rw [laid_of_not_nested hregular hclear.1]
            exact ih hregular hclear.2 htarget
      next => cases htarget

/-! ## Needs -/

/-- Whether a need is met depends on the kind of the fragment and its children. -/
theorem metBy_congr {fragment other : Json} (hkind : answerKind? fragment = answerKind? other)
    (hchildren : childMap fragment = childMap other) (need : Need) :
    need.metBy fragment = need.metBy other := by
  have hchild : ∀ key, child? key fragment = child? key other := fun key => by
    rw [child?, child?, hchildren]
  cases need with
  | count path | buckets path => cases path <;> simp [Need.metBy, target?, hkind, hchild]
  | groups path => cases path <;> simp [Need.metBy, target?, hkind, hchild]

/-- A need whose way is clear is still met after an injection. -/
theorem metBy_laidInside {need : Need} {fragment : Json} (hfragment : Regular scope fragment)
    (hclear : clearWay scope need.path fragment = true) (hmet : need.metBy fragment = true) :
    need.metBy (laidInside scope filter fragment) = true := by
  cases need with
  | count path | buckets path =>
      rw [Need.metBy, Option.any_eq_true] at hmet ⊢
      obtain ⟨target, htarget, hkind⟩ := hmet
      obtain ⟨-, found, hfound, hsame, -⟩ := target?_laidInside filter hfragment hclear htarget
      exact ⟨found, hfound, by rwa [hsame]⟩
  | groups path =>
      rw [Need.metBy, Option.any_eq_true] at hmet ⊢
      obtain ⟨target, htarget, hkinds⟩ := hmet
      rw [Bool.and_eq_true, Option.any_eq_true] at hkinds
      obtain ⟨hkind, hits, hchild, hhits⟩ := hkinds
      obtain ⟨hregular, found, hfound, hsame, hinside⟩ :=
        target?_laidInside filter hfragment hclear htarget
      -- what asks for buckets is not nested, so its own children have not moved
      have hnested : isNestedAt scope target = false := by
        by_contra hnested
        have hlayer := answerKind?_of_isNestedAt hregular (by simpa using hnested)
        simp [hlayer] at hkind
      refine ⟨found, hfound, ?_⟩
      rw [Bool.and_eq_true, Option.any_eq_true]
      refine ⟨by rwa [hsame], laid scope filter "hits" hits, ?_, ?_⟩
      · rw [hinside hnested, child?_laidInside hregular, hchild, Option.map_some]
      · rwa [answerKind?_laid (regular_of_child? hregular hchild)]

variable (filter) in
/-- The root of a fragment after an injection asks for the same as before, and has
the fragments inside as its children, whether there is a layer or not. -/
theorem rootFragment_laid {id : String} {fragment : Json} (hfragment : Regular scope fragment)
    (hnone : child? (id ++ "_filter") fragment = none) :
    answerKind? (rootFragment id (laid scope filter id fragment)) = answerKind? fragment ∧
      childMap (rootFragment id (laid scope filter id fragment)) =
        laidMap scope filter (childMap fragment) := by
  cases hnested : isNestedAt scope fragment with
  | false =>
      rw [laid_of_not_nested hfragment hnested, rootFragment, child?_laidInside hfragment, hnone]
      exact ⟨answerKind?_laidInside hfragment, childMap_laidInside hfragment⟩
  | true =>
      obtain ⟨-, layer, hlayer, hkind, hchildren⟩ := laid_of_nested hfragment hnested id
      have hroot : rootFragment id (laid scope filter id fragment) = layer := by
        rw [rootFragment, child?, hlayer, Table.get?_cons, if_pos rfl, Option.getD_some]
      rw [hroot, answerKind?_of_isNestedAt hfragment hnested]
      exact ⟨hkind, hchildren⟩

/-- A fragment that suits an entry still does after an injection, if the way to
everything that the entry reads is clear. -/
theorem suits_laid {entry : Entry} {fragment : Json} (hfragment : Regular scope fragment)
    (hsuits : Suits entry fragment)
    (hnone : child? (entry.id ++ "_filter") fragment = none)
    (hclear : ∀ need ∈ entry.needs, clearWay scope need.path fragment = true) :
    Suits entry (laid scope filter entry.id fragment) where
  needs need hneed := by
    obtain ⟨hkind, hchildren⟩ := rootFragment_laid filter hfragment hnone
    have hmet := hsuits.needs need hneed
    rw [rootFragment, hnone, Option.getD_none] at hmet
    rw [metBy_congr (hkind.trans (answerKind?_laidInside hfragment).symm)
      (hchildren.trans (childMap_laidInside hfragment).symm)]
    exact metBy_laidInside hfragment (hclear need hneed) hmet
  root layer hlayer := by
    cases hnested : isNestedAt scope fragment with
    | false =>
        rw [laid_of_not_nested hfragment hnested, child?_laidInside hfragment, hnone] at hlayer
        cases hlayer
    | true => exact (laid_of_nested hfragment hnested entry.id).1
  whole path hpath := (answerKind?_laid hfragment entry.id).trans (hsuits.whole path hpath)

end TenderSearch.Catalog
