import Mathlib.Tactic.SplitIfs

/-!
# Strings in the order of their bytes

Strings are compared character by character. That is also the order of their
UTF-8 forms, compared byte by byte: of two characters the greater one has the
greater form, and no form is the start of another one.
-/

namespace TenderSearch.Text

/-- The bytes of the UTF-8 form. -/
def utf8 (text : String) : List UInt8 :=
  text.toUTF8.data.toList

theorem utf8_eq_flatMap (text : String) :
    utf8 text = text.toList.flatMap String.utf8EncodeChar := by
  rw [utf8, String.toUTF8, ← String.utf8Encode_toList, List.utf8Encode, List.data_toByteArray]

/-- Some byte tells the forms of two characters apart, whatever follows them. -/
theorem utf8EncodeChar_append_lt {c d : Char} (hlt : c < d) (rest others : List UInt8) :
    String.utf8EncodeChar c ++ rest < String.utf8EncodeChar d ++ others := by
  have hval : c.toNat < d.toNat := hlt
  have hvalid : d.toNat < 0xD800 ∨ 0xDFFF < d.toNat ∧ d.toNat < 0x110000 := d.valid
  have hbound : d.toNat < 0x110000 := by omega
  -- forms of different lengths differ in the first byte, others in one of their bytes
  unfold String.utf8EncodeChar
  dsimp only
  split_ifs <;>
    simp (disch := omega) only [List.cons_append, List.nil_append, List.cons_lt_cons_iff,
      UInt8.lt_iff_toNat_lt, ← UInt8.toNat_inj, UInt8.toNat_ofNat', Char.toNat_val,
      Nat.mod_eq_of_lt] at * <;>
    omega

theorem flatMap_utf8EncodeChar_lt {first second : List Char} (hlt : first < second) :
    first.flatMap String.utf8EncodeChar < second.flatMap String.utf8EncodeChar := by
  induction first generalizing second with
  | nil =>
      cases second with
      | nil => exact absurd hlt (List.lt_irrefl _)
      | cons d others =>
          obtain ⟨byte, bytes, hbytes⟩ :=
            List.exists_cons_of_ne_nil (String.utf8EncodeChar_ne_nil (c := d))
          rw [List.flatMap_nil, List.flatMap_cons, hbytes]
          exact List.nil_lt_cons _ _
  | cons c rest ih =>
      cases second with
      | nil => exact absurd hlt (List.not_lt_nil _)
      | cons d others =>
          rw [List.flatMap_cons, List.flatMap_cons]
          rcases List.cons_lt_cons_iff.mp hlt with hhead | ⟨rfl, htail⟩
          · exact utf8EncodeChar_append_lt hhead _ _
          · exact List.append_left_lt (ih htail)

theorem utf8_lt_iff {first second : String} : utf8 first < utf8 second ↔ first < second := by
  have hmono : ∀ {text other : String}, text < other → utf8 text < utf8 other := by
    intro text other hlt
    rw [utf8_eq_flatMap, utf8_eq_flatMap]
    exact flatMap_utf8EncodeChar_lt hlt
  refine ⟨fun hlt => ?_, hmono⟩
  rcases Std.lt_trichotomy first second with hless | rfl | hgreater
  · exact hless
  · exact absurd hlt (List.lt_irrefl _)
  · exact absurd (hmono hgreater) (List.lt_asymm hlt)

end TenderSearch.Text
