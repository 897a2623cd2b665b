import TenderSearch.Catalog.Answer

/-!
# The shape of answers

What the engine sends back for a fragment of a request. The kind of the fragment
decides what the answer holds itself, and below that it holds an answer for every
child of the fragment: layers hold them as fields, lists of buckets hold them in
every bucket. So a path of children through layers leads to the same place in the
request and in its answer.
-/

namespace TenderSearch.Catalog

open Json

/-- What an answer holds for a kind of fragment. -/
inductive AnswerKind where
  /-- A count of documents. -/
  | layer
  | buckets
  /-- A number. -/
  | sum
  /-- Documents. -/
  | hits
deriving DecidableEq

def AnswerKind.known : List (String × AnswerKind) :=
  [("nested", .layer), ("reverse_nested", .layer), ("filter", .layer), ("terms", .buckets),
    ("date_histogram", .buckets), ("sum", .sum), ("top_hits", .hits)]

/-- The kind of a fragment, by the field that says what it asks for. -/
def answerKind? : Json → Option AnswerKind
  | .obj fragment => fragment.findSome? fun entry => Table.get? entry.1 AnswerKind.known
  | _ => none

/-- The children of a fragment. -/
def childMap (fragment : Json) : Fields :=
  match fragment.get? "aggregations" with
  | some (.obj map) => map
  | _ => []

def child? (key : String) (fragment : Json) : Option Json :=
  Table.get? key (childMap fragment)

/-- The fragment at the end of a path of children. All fragments before it have
to be layers. -/
def target? : List String → Json → Option Json
  | [], fragment => some fragment
  | key :: rest, fragment =>
      if answerKind? fragment = some .layer then (child? key fragment).bind (target? rest)
      else none

/-! ## Well-shaped answers -/

def holdsCount (answer : Json) : Bool :=
  ((answer.get? "doc_count").bind (natOfBits? 64)).isSome

/-- A bucket has a key and a count, and its key may have a text. -/
def isBucket (item : Json) : Bool :=
  (item.get? "key").isSome && holdsCount item &&
    match item.get? "key_as_string" with
    | none | some .null | some (.str _) => true
    | some _ => false

def holdsNumber (answer : Json) : Bool :=
  match answer.get? "value" with
  | some (.num _) => true
  | _ => false

/-- There is at least one hit, and all of them have a document. -/
def holdsHits (answer : Json) : Bool :=
  match answer.at? ["hits", "hits"] with
  | some (.arr hits) => !hits.isEmpty && hits.all fun hit => (hit.get? "_source").isSome
  | _ => false

mutual

/-- Whether an answer has the shape that a fragment asks for. -/
def wellShaped : Json → Json → Bool
  | .obj fragment, answer =>
      match answerKind? (.obj fragment) with
      | some .layer => holdsCount answer && childrenShaped fragment answer
      | some .buckets =>
          match answer.get? "buckets" with
          | some (.arr items) =>
              items.all fun item => isBucket item && childrenShaped fragment item
          | _ => false
      | some .sum => holdsNumber answer && childrenShaped fragment answer
      | some .hits => holdsHits answer && childrenShaped fragment answer
      | none => answer.isObject && childrenShaped fragment answer
  | _, _ => false

/-- Whether an answer holds a well-shaped one for every child of a fragment with
the given fields. -/
def childrenShaped : List (String × Json) → Json → Bool
  | [], _ => true
  | (name, .obj inner) :: rest, answer =>
      (if name = "aggregations" then entriesShaped inner answer else true) &&
        childrenShaped rest answer
  | _ :: rest, answer => childrenShaped rest answer

def entriesShaped : List (String × Json) → Json → Bool
  | [], _ => true
  | (key, fragment) :: rest, answer =>
      (answer.get? key).any (wellShaped fragment) && entriesShaped rest answer

end

/-- Whether a whole answer holds a well-shaped one for a fragment under an id. A
filter layer for the id that the fragment does not ask for would be mistaken for
one that an injection has put there. -/
def answered (fragment : Json) (id : String) (answer : Json) : Bool :=
  (answer.get? id).any fun part =>
    wellShaped fragment part &&
      ((part.get? (id ++ "_filter")).isNone || (child? (id ++ "_filter") fragment).isSome)

/-! ## What is in a well-shaped answer -/

theorem exists_part_of_entriesShaped {map : Fields} {answer : Json}
    (hshaped : entriesShaped map answer = true) {key : String} {fragment : Json}
    (hget : Table.get? key map = some fragment) :
    ∃ part, answer.get? key = some part ∧ wellShaped fragment part = true := by
  induction map with
  | nil => cases hget
  | cons entry rest ih =>
      obtain ⟨k, first⟩ := entry
      rw [entriesShaped, Bool.and_eq_true, Option.any_eq_true] at hshaped
      rw [Table.get?_cons] at hget
      split at hget
      next heq =>
        simp only [Option.some.injEq] at hget
        rw [← heq, ← hget]
        exact hshaped.1
      next => exact ih hshaped.2 hget

theorem entriesShaped_of_get? {fragment map : Fields} {answer : Json}
    (hshaped : childrenShaped fragment answer = true)
    (hget : Table.get? "aggregations" fragment = some (.obj map)) :
    entriesShaped map answer = true := by
  induction fragment with
  | nil => cases hget
  | cons entry rest ih =>
      obtain ⟨name, value⟩ := entry
      rw [Table.get?_cons] at hget
      -- only an object under the name of such maps holds children
      cases value with
      | obj inner =>
          rw [childrenShaped, Bool.and_eq_true] at hshaped
          split at hget
          next hname =>
            simp only [Option.some.injEq, Json.obj.injEq] at hget
            rw [if_pos hname, hget] at hshaped
            exact hshaped.1
          next => exact ih hshaped.2 hget
      | _ =>
          split at hget
          next => cases hget
          next => exact ih (by simpa [childrenShaped] using hshaped) hget

theorem exists_part_of_childrenShaped {fragment : Fields} {answer : Json}
    (hshaped : childrenShaped fragment answer = true) {key : String} {inner : Json}
    (hchild : child? key (.obj fragment) = some inner) :
    ∃ part, answer.get? key = some part ∧ wellShaped inner part = true := by
  rw [child?, childMap] at hchild
  split at hchild
  next map hget =>
    exact exists_part_of_entriesShaped (entriesShaped_of_get? hshaped hget) hchild
  next => cases hchild

/-- The answer to a layer. -/
theorem exists_count_of_wellShaped {fragment answer : Json}
    (hshaped : wellShaped fragment answer = true)
    (hkind : answerKind? fragment = some .layer) :
    ∃ count, (answer.get? "doc_count").bind (natOfBits? 64) = some count := by
  cases fragment with
  | obj fields =>
      rw [wellShaped, hkind, Bool.and_eq_true] at hshaped
      exact Option.isSome_iff_exists.mp hshaped.1
  | _ => cases hkind

theorem exists_part_of_layer {fragment answer : Json} (hshaped : wellShaped fragment answer = true)
    (hkind : answerKind? fragment = some .layer) {key : String} {inner : Json}
    (hchild : child? key fragment = some inner) :
    ∃ part, answer.get? key = some part ∧ wellShaped inner part = true := by
  cases fragment with
  | obj fields =>
      rw [wellShaped, hkind, Bool.and_eq_true] at hshaped
      exact exists_part_of_childrenShaped hshaped.2 hchild
  | _ => cases hkind

/-- The answer to a list of buckets. -/
theorem exists_items_of_wellShaped {fragment answer : Json}
    (hshaped : wellShaped fragment answer = true)
    (hkind : answerKind? fragment = some .buckets) :
    ∃ items, answer.get? "buckets" = some (.arr items) ∧ ∀ item ∈ items,
      isBucket item = true ∧ ∀ key inner, child? key fragment = some inner →
        ∃ part, item.get? key = some part ∧ wellShaped inner part = true := by
  cases fragment with
  | obj fields =>
      rw [wellShaped, hkind] at hshaped
      simp only at hshaped
      split at hshaped
      next items hitems =>
        refine ⟨items, hitems, fun item hitem => ?_⟩
        have hitem := List.all_eq_true.mp hshaped item hitem
        rw [Bool.and_eq_true] at hitem
        exact ⟨hitem.1, fun key inner hchild => exists_part_of_childrenShaped hitem.2 hchild⟩
      next => cases hshaped
  | _ => cases hkind

theorem holdsHits_of_wellShaped {fragment answer : Json}
    (hshaped : wellShaped fragment answer = true) (hkind : answerKind? fragment = some .hits) :
    holdsHits answer = true := by
  cases fragment with
  | obj fields =>
      rw [wellShaped, hkind, Bool.and_eq_true] at hshaped
      exact hshaped.1
  | _ => cases hkind

/-- A path leads to the same place in a fragment and in its answer. -/
theorem exists_part_of_target? {path : List String} {fragment answer target : Json}
    (hshaped : wellShaped fragment answer = true) (htarget : target? path fragment = some target) :
    ∃ part, answer.at? path = some part ∧ wellShaped target part = true := by
  induction path generalizing fragment answer with
  | nil =>
      cases htarget
      exact ⟨answer, rfl, hshaped⟩
  | cons key rest ih =>
      rw [target?] at htarget
      split at htarget
      next hkind =>
        obtain ⟨inner, hchild, hinner⟩ := Option.bind_eq_some_iff.mp htarget
        obtain ⟨part, hpart, hshaped⟩ := exists_part_of_layer hshaped hkind hchild
        obtain ⟨last, hlast, hshaped⟩ := ih hshaped hinner
        exact ⟨last, by rw [at?, hpart, Option.bind_some, hlast], hshaped⟩
      next => cases htarget

end TenderSearch.Catalog
