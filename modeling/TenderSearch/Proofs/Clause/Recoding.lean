import TenderSearch.Clause.Record
import TenderSearch.Proofs.Json.Recoding

/-!
# Recoding clauses

A clause that is written and read again is the same one, down to the clauses that
are joined to it. Only a known kind or comparison that is kept by its name, as if
it were not known, would come back as another one, and reading makes no such
clause.
-/

namespace TenderSearch

open Json

/-- A kind that is kept by its name is not a known one. -/
def Clause.Kind.IsNormal (kind : Clause.Kind) : Prop :=
  ∀ name, kind = .unsupported name → Table.get? name Clause.Kind.known = none

/-- A comparison that is kept by its name is not a known one. -/
def Comparison.IsNormal (comparison : Comparison) : Prop :=
  ∀ name, comparison = .other name → Table.get? name Comparison.known = none

/-- No clause, neither the first one nor one joined to another, keeps a known kind or
comparison by its name. -/
inductive Clause.IsNormal : Clause → Prop where
  | intro {clause : Clause} (hkind : clause.kind.IsNormal)
      (hcomparison : ∀ comparison, clause.comparison = some comparison → comparison.IsNormal)
      (hjoined : ∀ other ∈ clause.joined, Clause.IsNormal other) : Clause.IsNormal clause

/-- If a name that may not be known is kept by a fallback, what is kept is not known. -/
theorem get?_eq_none_of_getD {κ : Type} {known : List (String × κ)} {fallback : String → κ}
    (hinjective : ∀ name other, fallback name = fallback other → name = other)
    (hknown : ∀ entry ∈ known, ∀ name, entry.2 ≠ fallback name) {name other : String}
    (hkept : (Table.get? name known).getD (fallback name) = fallback other) :
    Table.get? other known = none := by
  cases hget : Table.get? name known with
  | none =>
      rw [hget] at hkept
      rw [← hinjective name other hkept]
      exact hget
  | some kept =>
      rw [hget] at hkept
      exact absurd hkept (hknown (name, kept) (Table.mem_of_get? hget) other)

namespace Comparison

theorem ofName_name {comparison : Comparison} (hnormal : comparison.IsNormal) :
    ofName comparison.name = comparison := by
  cases comparison with
  | other name => simp [ofName, Comparison.name, hnormal name rfl]
  | _ => rfl

theorem isNormal_ofName (name : String) : (ofName name).IsNormal := by
  intro other heq
  apply get?_eq_none_of_getD (fun _ _ => Comparison.other.inj) _ heq
  simp [known]

end Comparison

namespace Clause

theorem Kind.isNormal_ofName (name : String) : (Kind.ofName name).IsNormal := by
  intro other heq
  apply get?_eq_none_of_getD (fun _ _ => Kind.unsupported.inj) _ heq
  simp [Kind.known]

/-! ## Reading what was written -/

theorem joinedByName?_eq (fields : Fields) :
    joinedByName? fields = defaulted? "and" [] joined? fields := by
  induction fields with
  | nil => rfl
  | cons entry rest ih =>
      obtain ⟨key, value⟩ := entry
      unfold joinedByName? defaulted?
      rw [Table.get?_cons]
      split
      next => rfl
      next => exact ih

/-- The fields of a clause, in which the joined clauses are written already. -/
def writtenFields (clause : Clause) (joined : List Json) : Fields :=
  fieldUnless clause.joined.isEmpty "and" (.arr joined) ++ [("field", .str clause.field)] ++
    fieldUnless clause.comparison.isNone "mode"
      (ofString? (clause.comparison.map Comparison.name)) ++
    [("type", .str clause.kind.name), ("value", .arr clause.values)]

theorem toJson_eq (clause : Clause) :
    clause.toJson = .obj (clause.writtenFields (toItems clause.joined)) := by
  cases clause
  rw [toJson]
  rfl

theorem build?_writtenFields {clause : Clause} (hkind : clause.kind.IsNormal)
    (hcomparison : ∀ comparison, clause.comparison = some comparison → comparison.IsNormal)
    (joined : List Json) : build? (writtenFields clause joined) clause.joined = some clause := by
  obtain ⟨kind, field, values, comparison, others⟩ := clause
  have htype : Kind.ofName kind.name = kind := Kind.ofName_name hkind
  unfold build? writtenFields
  simp only [List.append_assoc, required?, defaulted?, optional?, get?_fieldUnless_append]
  cases comparison with
  | none => simp [Table.get?, string?, oneOrMany, htype]
  | some comparison =>
      have hmode : Comparison.ofName comparison.name = comparison :=
        Comparison.ofName_name (hcomparison comparison rfl)
      simp [Table.get?, string?, oneOrMany, ofString?, htype, hmode]

mutual

theorem ofJson?_toJson : (clause : Clause) → clause.IsNormal → ofJson? clause.toJson = some clause
  | { kind, field, values, comparison, joined }, .intro hkind hcomparison hjoined => by
      have hread : joinedByName? (writtenFields { kind, field, values, comparison, joined }
          (toItems joined)) = some joined := by
        unfold writtenFields
        rw [joinedByName?_eq, defaulted?, List.append_assoc, List.append_assoc,
          get?_fieldUnless_append]
        cases joined with
        | nil => simp [Table.get?]
        | cons first rest => simpa [joined?] using ofItems?_toItems (first :: rest) hjoined
      rw [toJson_eq, ofJson?, hread]
      exact build?_writtenFields hkind hcomparison (toItems joined)

theorem ofItems?_toItems : (clauses : List Clause) → (∀ clause ∈ clauses, clause.IsNormal) →
    ofItems? (toItems clauses) = some clauses
  | [], _ => rfl
  | clause :: rest, hnormal => by
      rw [toItems, ofItems?, ofJson?_toJson clause (hnormal clause List.mem_cons_self),
        ofItems?_toItems rest fun other hother => hnormal other (List.mem_cons_of_mem _ hother)]
      rfl

end

/-! ## What is read -/

theorem isNormal_of_build? {fields : Fields} {joined : List Clause} {clause : Clause}
    (hread : build? fields joined = some clause) (hjoined : ∀ other ∈ joined, other.IsNormal) :
    clause.IsNormal := by
  unfold build? at hread
  obtain ⟨kind, -, hread⟩ := Option.bind_eq_some_iff.mp hread
  obtain ⟨field, -, hread⟩ := Option.bind_eq_some_iff.mp hread
  obtain ⟨values, -, hread⟩ := Option.bind_eq_some_iff.mp hread
  obtain ⟨comparison?, -, hread⟩ := Option.bind_eq_some_iff.mp hread
  cases hread
  refine .intro (Kind.isNormal_ofName kind) ?_ hjoined
  intro comparison hcomparison
  obtain ⟨name, -, rfl⟩ := Option.map_eq_some_iff.mp hcomparison
  exact Comparison.isNormal_ofName name

theorem ofItems?_eq_mapM (items : List Json) : ofItems? items = items.mapM ofJson? := by
  induction items with
  | nil => rfl
  | cons item rest ih => rw [ofItems?, List.mapM_cons, ih]

theorem eq_arr_of_joined? {value : Json} {clauses : List Clause}
    (hread : joined? value = some clauses) :
    ∃ items, value = .arr items ∧ items.mapM ofJson? = some clauses := by
  cases value with
  | arr items => exact ⟨items, rfl, ofItems?_eq_mapM items ▸ hread⟩
  | _ => cases hread

/-- A clause is normal if the clauses are that are read from one member of its value. -/
theorem exists_joined_of_ofJson? {value : Json} {clause : Clause}
    (hread : ofJson? value = some clause) : ∃ joined,
      (joined = [] ∨ ∃ member ∈ value.members, joined? member = some joined) ∧
      ((∀ other ∈ joined, other.IsNormal) → clause.IsNormal) := by
  cases value with
  | obj fields =>
      rw [ofJson?, joinedByName?_eq, defaulted?] at hread
      obtain ⟨joined, hjoined, hread⟩ := Option.bind_eq_some_iff.mp hread
      refine ⟨joined, ?_, isNormal_of_build? hread⟩
      split at hjoined
      next => exact .inl (Option.some.inj hjoined).symm
      next value hget =>
        exact .inr ⟨value, List.mem_map_of_mem (Table.mem_of_get? hget), hjoined⟩
  | arr items =>
      rw [ofJson?] at hread
      obtain ⟨joined, hjoined, hread⟩ := Option.bind_eq_some_iff.mp hread
      obtain ⟨fields, -, hread⟩ := Option.bind_eq_some_iff.mp hread
      refine ⟨joined, ?_, isNormal_of_build? hread⟩
      -- the joined clauses stand at the fifth place
      unfold joinedByPlace? at hjoined
      split at hjoined
      next value _ => exact .inr ⟨value, by simp [members], hjoined⟩
      next => exact .inl (Option.some.inj hjoined).symm
  | _ => cases hread

/-- Whatever is read from a value, as one clause or as a list of clauses, is normal. -/
theorem isNormal_of_read (value : Json) :
    (∀ clause, ofJson? value = some clause → clause.IsNormal) ∧
    ∀ clauses, joined? value = some clauses → ∀ clause ∈ clauses, clause.IsNormal :=
  property_of_read (fun _ _ => eq_arr_of_joined?) (fun _ _ => exists_joined_of_ofJson?) value

theorem recodes : Recodes toJson ofJson? Clause.IsNormal :=
  recodes_of_decode_encode ofJson?_toJson fun value => (isNormal_of_read value).1

end Clause

end TenderSearch
