import TenderSearch.Aggregation.Record
import TenderSearch.Proofs.Json.Recoding

/-!
# Recoding aggregations

An aggregation that is written and read again is the same one, down to those
inside it. A kind that is not known is read as terms and written as terms.
-/

namespace TenderSearch.Aggregation

open Json

/-- All sizes that are asked for, here and inside, are numbers of 32 bits. -/
inductive Fits : Aggregation → Prop where
  | intro {aggregation : Aggregation}
      (hsize : ∀ size, aggregation.size = some size → size < Nat.pow 2 32)
      (hchildren : ∀ child ∈ aggregation.children, Fits child) : Fits aggregation

/-! ## Reading what was written -/

theorem childrenByName?_eq (fields : Fields) :
    childrenByName? fields = defaulted? "aggregations" [] children? fields := by
  induction fields with
  | nil => rfl
  | cons entry rest ih =>
      obtain ⟨key, value⟩ := entry
      unfold childrenByName? defaulted?
      rw [Table.get?_cons]
      split
      next => rfl
      next => exact ih

/-- The fields of an aggregation, in which those inside it are written already. -/
def writtenFields (aggregation : Aggregation) (children : List Json) : Fields :=
  fieldUnless aggregation.children.isEmpty "aggregations" (.arr children) ++
    [("field", ofString? aggregation.field)] ++
    fieldUnless aggregation.size.isNone "size" (ofNat (aggregation.size.getD 0)) ++
    [("type", .str aggregation.kind.name)]

theorem toJson_eq (aggregation : Aggregation) :
    aggregation.toJson = .obj (aggregation.writtenFields (toItems aggregation.children)) := by
  cases aggregation
  rw [toJson]
  rfl

theorem build?_writtenFields {aggregation : Aggregation}
    (hsize : ∀ size, aggregation.size = some size → size < Nat.pow 2 32)
    (children : List Json) :
    build? (writtenFields aggregation children) aggregation.children = some aggregation := by
  obtain ⟨field, kind, size, inside⟩ := aggregation
  have htype : Kind.ofName kind.name = kind := Kind.ofName_name kind
  have hread : optional? "size" (natOfBits? 32) (writtenFields ⟨field, kind, size, inside⟩ children)
      = some size := by
    unfold writtenFields optional?
    rw [List.append_assoc, List.append_assoc, get?_fieldUnless_append]
    cases size with
    | none => simp [Table.get?]
    | some size =>
        have hbits : natOfBits? 32 (ofNat size) = some size := natOfBits?_ofNat (hsize size rfl)
        simp only [ofNat, ofInt] at hbits
        simp [Table.get?, ofNat, ofInt, hbits]
  unfold build?
  rw [hread]
  unfold writtenFields
  simp only [List.append_assoc, defaulted?, optional?, get?_fieldUnless_append]
  cases field with
  | none => simp [Table.get?, string?, ofString?, htype]
  | some field => simp [Table.get?, string?, ofString?, htype]

mutual

theorem ofJson?_toJson :
    (aggregation : Aggregation) → aggregation.Fits → ofJson? aggregation.toJson = some aggregation
  | { field, kind, size, children }, .intro hsize hchildren => by
      have hread : childrenByName? (writtenFields { field, kind, size, children }
          (toItems children)) = some children := by
        unfold writtenFields
        rw [childrenByName?_eq, defaulted?, List.append_assoc, List.append_assoc,
          get?_fieldUnless_append]
        cases children with
        | nil => simp [Table.get?]
        | cons first rest => simpa [children?] using ofItems?_toItems (first :: rest) hchildren
      rw [toJson_eq, ofJson?, hread]
      exact build?_writtenFields hsize (toItems children)

theorem ofItems?_toItems : (aggregations : List Aggregation) →
    (∀ aggregation ∈ aggregations, aggregation.Fits) →
    ofItems? (toItems aggregations) = some aggregations
  | [], _ => rfl
  | aggregation :: rest, hfits => by
      rw [toItems, ofItems?, ofJson?_toJson aggregation (hfits aggregation List.mem_cons_self),
        ofItems?_toItems rest fun other hother => hfits other (List.mem_cons_of_mem _ hother)]
      rfl

end

/-! ## What is read -/

theorem fits_of_build? {fields : Fields} {children : List Aggregation}
    {aggregation : Aggregation} (hread : build? fields children = some aggregation)
    (hchildren : ∀ child ∈ children, child.Fits) : aggregation.Fits := by
  unfold build? at hread
  obtain ⟨field, -, hread⟩ := Option.bind_eq_some_iff.mp hread
  obtain ⟨kind, -, hread⟩ := Option.bind_eq_some_iff.mp hread
  obtain ⟨size?, hsize, hread⟩ := Option.bind_eq_some_iff.mp hread
  cases hread
  refine .intro ?_ hchildren
  rintro size rfl
  obtain ⟨value, hvalue⟩ := exists_of_optional? hsize
  exact lt_of_natOfBits? hvalue

theorem ofItems?_eq_mapM (items : List Json) : ofItems? items = items.mapM ofJson? := by
  induction items with
  | nil => rfl
  | cons item rest ih => rw [ofItems?, List.mapM_cons, ih]

theorem eq_arr_of_children? {value : Json} {aggregations : List Aggregation}
    (hread : children? value = some aggregations) :
    ∃ items, value = .arr items ∧ items.mapM ofJson? = some aggregations := by
  cases value with
  | arr items => exact ⟨items, rfl, ofItems?_eq_mapM items ▸ hread⟩
  | _ => cases hread

/-- An aggregation fits if those do that are read from one member of its value. -/
theorem exists_children_of_ofJson? {value : Json} {aggregation : Aggregation}
    (hread : ofJson? value = some aggregation) : ∃ children,
      (children = [] ∨ ∃ member ∈ value.members, children? member = some children) ∧
      ((∀ child ∈ children, child.Fits) → aggregation.Fits) := by
  cases value with
  | obj fields =>
      rw [ofJson?, childrenByName?_eq, defaulted?] at hread
      obtain ⟨children, hchildren, hread⟩ := Option.bind_eq_some_iff.mp hread
      refine ⟨children, ?_, fits_of_build? hread⟩
      split at hchildren
      next => exact .inl (Option.some.inj hchildren).symm
      next value hget =>
        exact .inr ⟨value, List.mem_map_of_mem (Table.mem_of_get? hget), hchildren⟩
  | arr items =>
      rw [ofJson?] at hread
      obtain ⟨children, hchildren, hread⟩ := Option.bind_eq_some_iff.mp hread
      obtain ⟨fields, -, hread⟩ := Option.bind_eq_some_iff.mp hread
      refine ⟨children, ?_, fits_of_build? hread⟩
      -- the aggregations inside stand at the fourth place
      unfold childrenByPlace? at hchildren
      split at hchildren
      next value _ => exact .inr ⟨value, by simp [members], hchildren⟩
      next => exact .inl (Option.some.inj hchildren).symm
  | _ => cases hread

/-- Whatever is read from a value, as one aggregation or as a list of them, fits. -/
theorem fits_of_read (value : Json) :
    (∀ aggregation, ofJson? value = some aggregation → aggregation.Fits) ∧
    ∀ aggregations, children? value = some aggregations →
      ∀ aggregation ∈ aggregations, aggregation.Fits :=
  property_of_read (fun _ _ => eq_arr_of_children?) (fun _ _ => exists_children_of_ofJson?) value

theorem recodes : Recodes toJson ofJson? Aggregation.Fits :=
  recodes_of_decode_encode ofJson?_toJson fun value => (fits_of_read value).1

end TenderSearch.Aggregation
