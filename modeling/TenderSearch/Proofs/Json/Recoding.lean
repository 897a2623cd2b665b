import TenderSearch.Json.Record
import TenderSearch.Proofs.Tree.Reach

/-!
# Recoding records

A record is recoded by reading it from a JSON value and writing it again. What a
kind of record has to keep to is that reading takes back what writing did, for all
the records that can be read; then recoding twice is recoding once.
-/

namespace TenderSearch.Json

/-! ## Records -/

section Recoding

variable {α : Type} (encode : α → Json) (decode? : Json → Option α)

/-- Reads a record and writes it again. -/
def recode? (value : Json) : Option Json :=
  (decode? value).map encode

/-- Reading takes back what writing did for all records of a form, all records that
are read are of this form, and recoding a second time changes nothing. -/
structure Recodes (IsNormal : α → Prop) : Prop where
  decode_encode : ∀ record, IsNormal record → decode? (encode record) = some record
  isNormal_of_decode : ∀ value record, decode? value = some record → IsNormal record
  recode_recode : ∀ value,
    (recode? encode decode? value).bind (recode? encode decode?) = recode? encode decode? value

variable {encode decode?} {IsNormal : α → Prop}

/-- A record that was read once is read again from what is written for it. -/
theorem bind_decode_encode
    (hencode : ∀ record, IsNormal record → decode? (encode record) = some record)
    (hdecode : ∀ value record, decode? value = some record → IsNormal record) (value : Json) :
    (recode? encode decode? value).bind decode? = decode? value := by
  unfold recode?
  cases hread : decode? value with
  | none => rfl
  | some record => exact hencode record (hdecode value record hread)

theorem recodes_of_decode_encode
    (hencode : ∀ record, IsNormal record → decode? (encode record) = some record)
    (hdecode : ∀ value record, decode? value = some record → IsNormal record) :
    Recodes encode decode? IsNormal where
  decode_encode := hencode
  isNormal_of_decode := hdecode
  recode_recode value := by
    calc (recode? encode decode? value).bind (recode? encode decode?)
        = ((recode? encode decode? value).bind decode?).map encode := (Option.map_bind ..).symm
      _ = (decode? value).map encode := by rw [bind_decode_encode hencode hdecode]

theorem Recodes.bind_decode (hrecodes : Recodes encode decode? IsNormal) (value : Json) :
    (recode? encode decode? value).bind decode? = decode? value :=
  bind_decode_encode hrecodes.decode_encode hrecodes.isNormal_of_decode value

end Recoding

/-! ## Records inside of records -/

/-- The items of an array and the values of an object. -/
def members : Json → List Json
  | .arr items => items
  | .obj fields => fields.map Prod.snd
  | _ => []

section Inside

variable {α : Type} {read? : Json → Option α} {readAll? : Json → Option (List α)}
  {property : α → Prop}

theorem exists_mem_of_mapM {items : List Json} {records : List α}
    (hread : items.mapM read? = some records) :
    ∀ record ∈ records, ∃ item ∈ items, read? item = some record := by
  induction items generalizing records with
  | nil =>
      cases hread
      exact fun _ hmem => nomatch hmem
  | cons item rest ih =>
      rw [List.mapM_cons] at hread
      obtain ⟨first, hfirst, hread⟩ := Option.bind_eq_some_iff.mp hread
      obtain ⟨others, hothers, hread⟩ := Option.bind_eq_some_iff.mp hread
      cases hread
      refine List.forall_mem_cons.mpr ⟨⟨item, List.mem_cons_self, hfirst⟩, ?_⟩
      intro record hrecord
      obtain ⟨other, hother, hread⟩ := ih hothers record hrecord
      exact ⟨other, List.mem_cons_of_mem _ hother, hread⟩

/-- A property that a record has if the records inside of it have it holds of every
record that is read, alone or in a list. -/
theorem property_of_read
    (hall : ∀ value records, readAll? value = some records →
      ∃ items, value = .arr items ∧ items.mapM read? = some records)
    (hone : ∀ value record, read? value = some record → ∃ inside,
      (inside = [] ∨ ∃ member ∈ value.members, readAll? member = some inside) ∧
      ((∀ other ∈ inside, property other) → property record))
    (value : Json) : (∀ record, read? value = some record → property record) ∧
      ∀ records, readAll? value = some records → ∀ record ∈ records, property record := by
  -- what holds of the members holds of the records inside and of the items
  have hstep : ∀ value : Json, (∀ member ∈ value.members,
      (∀ record, read? member = some record → property record) ∧
        ∀ records, readAll? member = some records → ∀ record ∈ records, property record) →
      (∀ record, read? value = some record → property record) ∧
        ∀ records, readAll? value = some records → ∀ record ∈ records, property record := by
    intro value ih
    constructor
    · intro record hread
      obtain ⟨inside, hinside, hproperty⟩ := hone value record hread
      apply hproperty
      rcases hinside with rfl | ⟨member, hmember, hread⟩
      · exact fun _ hmem => nomatch hmem
      · exact (ih member hmember).2 inside hread
    · intro records hread record hrecord
      obtain ⟨items, rfl, hitems⟩ := hall value records hread
      obtain ⟨item, hitem, hread⟩ := exists_mem_of_mapM hitems record hrecord
      exact (ih item hitem).1 record hread
  induction value using Json.memberInduction with
  | null => exact hstep _ fun _ hmem => nomatch hmem
  | bool b => exact hstep _ fun _ hmem => nomatch hmem
  | num n => exact hstep _ fun _ hmem => nomatch hmem
  | str s => exact hstep _ fun _ hmem => nomatch hmem
  | arr items ih => exact hstep _ ih
  | obj fields ih => exact hstep _ (List.forall_mem_map.mpr ih)

end Inside

/-! ## Fields of written records -/

@[simp] theorem get?_fieldUnless_append (key name : String) (omitted : Bool) (value : Json)
    (rest : Fields) :
    Table.get? key (fieldUnless omitted name value ++ rest) =
      if omitted = false ∧ name = key then some value else Table.get? key rest := by
  cases omitted with
  | true => simp [fieldUnless]
  | false => simp [fieldUnless, Table.get?_cons]

section Fields

variable {α : Type} {name : String} {decode : Json → Option α} {fields : Fields}

/-- What holds of a default and of all values that are read holds of a field. -/
theorem property_of_defaulted? (property : α → Prop) {default a : α}
    (hdefault : property default) (hvalue : ∀ value a, decode value = some a → property a)
    (hread : defaulted? name default decode fields = some a) : property a := by
  unfold defaulted? at hread
  split at hread
  next => exact Option.some.inj hread ▸ hdefault
  next value _ => exact hvalue value a hread

theorem exists_of_optional? {a : α} (hread : optional? name decode fields = some (some a)) :
    ∃ value, decode value = some a := by
  unfold optional? at hread
  split at hread
  next => cases hread
  next => cases hread
  next value _ _ =>
    obtain ⟨_, hvalue, heq⟩ := Option.map_eq_some_iff.mp hread
    cases heq
    exact ⟨value, hvalue⟩

end Fields

/-! ## Values of fields -/

theorem natOfBits?_ofNat {bits n : Nat} (hn : n < Nat.pow 2 bits) :
    natOfBits? bits (ofNat n) = some n := by
  have hrange : (0 : Int) ≤ n ∧ (n : Int) < (Nat.pow 2 bits : Nat) := by omega
  simp only [natOfBits?, ofNat, ofInt, intIn?, if_pos hrange, Option.map_some, Int.toNat_natCast]

theorem lt_of_natOfBits? {bits n : Nat} {value : Json} (hread : natOfBits? bits value = some n) :
    n < Nat.pow 2 bits := by
  obtain ⟨m, hm, rfl⟩ := Option.map_eq_some_iff.mp hread
  unfold intIn? at hm
  split at hm
  next =>
    split at hm
    next hrange =>
      cases hm
      omega
    next => cases hm
  next => cases hm

/-- An integer that can be written with so many bits and a sign. -/
def FitsBits (bits : Nat) (n : Int) : Prop :=
  -(Nat.pow 2 (bits - 1) : Int) ≤ n ∧ n < (Nat.pow 2 (bits - 1) : Int)

instance (bits : Nat) (n : Int) : Decidable (FitsBits bits n) :=
  inferInstanceAs (Decidable (_ ∧ _))

theorem intOfBits?_ofInt {bits : Nat} {n : Int} (hn : FitsBits bits n) :
    intOfBits? bits (ofInt n) = some n := by
  simp only [intOfBits?, ofInt, intIn?]
  exact if_pos hn

theorem fitsBits_of_intOfBits? {bits : Nat} {n : Int} {value : Json}
    (hread : intOfBits? bits value = some n) : FitsBits bits n := by
  unfold intOfBits? intIn? at hread
  split at hread
  next =>
    split at hread
    next hrange =>
      cases hread
      exact hrange
    next => cases hread
  next => cases hread

theorem strings?_ofStrings (items : List String) : (ofStrings items).strings? = some items := by
  unfold ofStrings strings?
  rw [list?, Option.bind_some, List.mapM_map]
  induction items with
  | nil => rfl
  | cons item rest ih => rw [List.mapM_cons, ih]; rfl

end TenderSearch.Json
