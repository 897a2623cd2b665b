import TenderSearch.Proofs.Toml.Integers
import TenderSearch.Proofs.Toml.QuotedText
import TenderSearch.Toml.Reader

/-!
# Lines of TOML text

Values and lines are read back from the way they are written in, and so is a text
that is made of such lines. What ties the two sides together is a description of
the text: what its lines spell, one after the other.
-/

namespace TenderSearch.Toml

open Toml.Text (isBlank EndsText)

variable {text rest : List Char}

/-! ## Values -/

/-- A text that is read as a value up to the end of its line. -/
structure Spells (text : List Char) (value : Value) : Prop where
  head : ∃ c tail, text = c :: tail ∧ isBlank c = false
  read : ∀ rest, readValue? nestingLimit (text ++ '\n' :: rest) = some (value, '\n' :: rest)

/-- A string starts with a mark of its delimiter. -/
theorem exists_writeText_eq (s : String) :
    ∃ mark tail, writeText s = mark :: tail ∧ (mark = '"' ∨ mark = '\'') := by
  unfold writeText Quoting.write
  cases Quoting.of s.toList with
  | basic => exact ⟨_, _, rfl, .inl rfl⟩
  | literal => exact ⟨_, _, rfl, .inr rfl⟩
  | basicLines => exact ⟨_, _, rfl, .inl rfl⟩
  | literalLines => exact ⟨_, _, rfl, .inr rfl⟩

theorem readValue?_writeText (limit : Nat) (s : String) (hrest : EndsText rest) :
    readValue? limit (writeText s ++ rest) = some (.text s, rest) := by
  have hread := Text.read?_writeText s hrest
  obtain ⟨mark, tail, hwritten, hmark⟩ := exists_writeText_eq s
  have hvalue : readValue? limit (writeText s ++ rest) =
      readValue?.readText? limit (writeText s ++ rest) := by
    rw [hwritten, List.cons_append]
    rcases hmark with rfl | rfl
    · exact readValue?.eq_1 limit _
    · exact readValue?.eq_2 limit _
  rw [hvalue, readValue?.readText?, hread]
  rfl

theorem endsText_cons {c : Char} (hc : c ≠ '"' ∧ c ≠ '\'') (rest : List Char) :
    EndsText (c :: rest) where
  quote := by simpa using hc.1
  apostrophe := by simpa using hc.2

theorem spells_text (s : String) : Spells (writeText s) (.text s) where
  head := by
    obtain ⟨mark, tail, hwritten, rfl | rfl⟩ := exists_writeText_eq s
    · exact ⟨_, tail, hwritten, rfl⟩
    · exact ⟨_, tail, hwritten, rfl⟩
  read _ := readValue?_writeText nestingLimit s (endsText_cons (by decide) _)

/-- An integer has to fit 64 bits. -/
theorem spells_integer {n : Int} (hlow : -(Nat.pow 2 63 : Int) ≤ n)
    (hhigh : n < (Nat.pow 2 63 : Int)) : Spells (writeInteger n) (.integer n) := by
  have hn : Scalar.inRange? n = some (.integer n) := if_pos ⟨hlow, hhigh⟩
  obtain ⟨c, tail, hwritten, hc⟩ := head?_writeInteger n
  have hother {mark : Char} (hmark : mark ≠ '-' ∧ mark.isDigit = false) : c ≠ mark := by
    rintro rfl
    rcases hc with rfl | hc
    · exact hmark.1 rfl
    · rw [hmark.2] at hc
      cases hc
  constructor
  · refine ⟨c, tail, hwritten, ?_⟩
    have hblank : c ≠ ' ' := hother (by decide)
    have htab : c ≠ '\t' := hother (by decide)
    simp [isBlank, hblank, htab]
  · intro rest
    have hhead {mark : Char} (hmark : c ≠ mark) (text : List Char) :
        writeInteger n ++ '\n' :: rest ≠ mark :: text := by
      rw [hwritten]
      rintro ⟨⟩
      exact hmark rfl
    rw [readValue?.eq_7 nestingLimit _ (hhead (hother (by decide))) (hhead (hother (by decide)))
      (fun text _ => hhead (hother (by decide)) text)
      (fun _ text _ => hhead (hother (by decide)) text)
      (fun text _ => hhead (hother (by decide)) text)
      (fun _ text _ => hhead (hother (by decide)) text)]
    exact Scalar.read?_writeInteger hn rest

/-! ## Lists of strings -/

/-- Filler ends where a string starts. -/
theorem dropFiller?_writeText (s : String) (rest : List Char) :
    dropFiller? false (writeText s ++ rest) = some (writeText s ++ rest) := by
  obtain ⟨mark, tail, hwritten, hmark⟩ := exists_writeText_eq s
  rw [hwritten, List.cons_append]
  rcases hmark with rfl | rfl
  · rfl
  · rfl

/-- A string in a list that others may follow. -/
theorem readItems?_comma {limit fuel : Nat} {s : String} {items : List Value}
    {after : List Char} (htext : dropFiller? false text = some (writeText s ++ ',' :: rest))
    (hitems : readItems? (readValue? limit) fuel rest = some (items, after)) :
    readItems? (readValue? limit) (fuel + 1) text = some (.text s :: items, after) := by
  have hread := readValue?_writeText limit s (endsText_cons (by decide) (c := ',') rest)
  obtain ⟨mark, tail, hwritten, hmark⟩ := exists_writeText_eq s
  rw [readItems?, htext]
  rw [hwritten, List.cons_append] at hread ⊢
  rcases hmark with rfl | rfl
  · simp [hread, dropFiller?, isBlank, hitems]
  · simp [hread, dropFiller?, isBlank, hitems]

/-- The last string in a list. -/
theorem readItems?_close {limit fuel : Nat} {s : String}
    (htext : dropFiller? false text = some (writeText s ++ ']' :: rest)) :
    readItems? (readValue? limit) (fuel + 1) text = some ([.text s], rest) := by
  have hread := readValue?_writeText limit s (endsText_cons (by decide) (c := ']') rest)
  obtain ⟨mark, tail, hwritten, hmark⟩ := exists_writeText_eq s
  rw [readItems?, htext]
  rw [hwritten, List.cons_append] at hread ⊢
  rcases hmark with rfl | rfl
  · simp [hread, dropFiller?, isBlank]
  · simp [hread, dropFiller?, isBlank]

theorem readItems?_writeTextLines (items : List String) (limit : Nat) (rest : List Char)
    {fuel : Nat} (hfuel : items.length < fuel) :
    readItems? (readValue? limit) fuel ('\n' :: (writeTextLines items ++ ']' :: rest)) =
      some (items.map .text, rest) := by
  induction items generalizing fuel with
  | nil =>
      obtain ⟨fuel, rfl⟩ := Nat.exists_eq_add_one_of_ne_zero (Nat.ne_zero_of_lt hfuel)
      rfl
  | cons s items ih =>
      obtain ⟨fuel, rfl⟩ := Nat.exists_eq_add_one_of_ne_zero (Nat.ne_zero_of_lt hfuel)
      have htext : dropFiller? false ('\n' :: (writeTextLines (s :: items) ++ ']' :: rest)) =
          some (writeText s ++ ',' :: '\n' :: (writeTextLines items ++ ']' :: rest)) := by
        rw [← dropFiller?_writeText]
        simp only [writeTextLines, List.append_assoc, List.cons_append, List.nil_append]
        rfl
      exact readItems?_comma htext (ih (Nat.lt_of_succ_lt_succ hfuel))

theorem length_le_writeTextLines (items : List String) :
    items.length ≤ (writeTextLines items).length := by
  induction items with
  | nil => exact Nat.le_refl _
  | cons s items ih =>
      simp only [writeTextLines, List.length_append, List.length_cons]
      omega

/-- Every list of strings starts with a bracket, and its items are read up to the
other one. -/
theorem exists_writeTexts_eq (items : List String) :
    ∃ tail, writeTexts items = '[' :: tail ∧ ∀ limit rest,
      readItems? (readValue? limit) ((tail ++ rest).length + 1) (tail ++ rest) =
        some (items.map .text, rest) := by
  match items with
  | [] => exact ⟨_, rfl, fun _ _ => rfl⟩
  | [s] =>
      refine ⟨writeText s ++ [']'], rfl, fun limit rest => ?_⟩
      rw [List.append_assoc, List.singleton_append]
      exact readItems?_close (dropFiller?_writeText s _)
  | s :: next :: items =>
      refine ⟨'\n' :: (writeTextLines (s :: next :: items) ++ [']']), rfl, fun limit rest => ?_⟩
      have hfuel := length_le_writeTextLines (s :: next :: items)
      rw [List.cons_append, List.append_assoc, List.singleton_append]
      apply readItems?_writeTextLines
      simp only [List.length_cons, List.length_append] at hfuel ⊢
      omega

theorem spells_texts (items : List String) :
    Spells (writeTexts items) (.list (items.map .text)) := by
  obtain ⟨tail, hwritten, hitems⟩ := exists_writeTexts_eq items
  constructor
  · exact ⟨_, tail, hwritten, rfl⟩
  · intro rest
    have hread := hitems 78 ('\n' :: rest)
    rw [hwritten, List.cons_append, nestingLimit, readValue?, hread]
    rfl

/-! ## Keys -/

/-- A key that is written without quotes. -/
structure IsPlainKey (key : String) : Prop where
  nonempty : key.toList ≠ []
  plain : ∀ c ∈ key.toList, isKeyChar c = true

instance (key : String) : Decidable (IsPlainKey key) :=
  decidable_of_iff (key.toList ≠ [] ∧ key.toList.all isKeyChar = true)
    ⟨fun h => ⟨h.1, List.all_eq_true.mp h.2⟩,
      fun h => ⟨h.nonempty, List.all_eq_true.mpr h.plain⟩⟩

theorem ne_of_isKeyChar {c mark : Char} (hc : isKeyChar c = true)
    (hmark : isKeyChar mark = false) : c ≠ mark := by
  rintro rfl
  rw [hmark] at hc
  cases hc

namespace IsPlainKey

variable {key : String}

theorem exists_head (hkey : IsPlainKey key) :
    ∃ first others, key.toList = first :: others ∧ isKeyChar first = true := by
  obtain ⟨first, others, hfirst⟩ := List.exists_cons_of_ne_nil hkey.nonempty
  exact ⟨first, others, hfirst, hkey.plain first (hfirst ▸ List.mem_cons_self)⟩

theorem append_ne_cons (hkey : IsPlainKey key) {mark : Char} (hmark : isKeyChar mark = false)
    (rest text : List Char) : key.toList ++ rest ≠ mark :: text := by
  obtain ⟨first, others, hfirst, hplain⟩ := hkey.exists_head
  rw [hfirst]
  rintro ⟨⟩
  exact ne_of_isKeyChar hplain hmark rfl

theorem dropBlanks_append (hkey : IsPlainKey key) (rest : List Char) :
    dropBlanks (key.toList ++ rest) = key.toList ++ rest := by
  obtain ⟨first, others, hfirst, hplain⟩ := hkey.exists_head
  have hspace : first ≠ ' ' := ne_of_isKeyChar hplain (by decide)
  have htab : first ≠ '\t' := ne_of_isKeyChar hplain (by decide)
  rw [hfirst, List.cons_append, dropBlanks, List.dropWhile_cons_of_neg]
  simp [isBlank, hspace, htab]

theorem dropFiller?_append (hkey : IsPlainKey key) (rest : List Char) :
    dropFiller? false (key.toList ++ rest) = some (key.toList ++ rest) := by
  obtain ⟨first, others, hfirst, hplain⟩ := hkey.exists_head
  have hspace : first ≠ ' ' := ne_of_isKeyChar hplain (by decide)
  have htab : first ≠ '\t' := ne_of_isKeyChar hplain (by decide)
  have hline : first ≠ '\n' := ne_of_isKeyChar hplain (by decide)
  have hreturn : first ≠ '\r' := ne_of_isKeyChar hplain (by decide)
  have hcomment : first ≠ '#' := ne_of_isKeyChar hplain (by decide)
  rw [hfirst, List.cons_append, dropFiller?.eq_4 _ _ _ hline fun _ h => absurd h hreturn]
  simp [isBlank, hspace, htab, hcomment]

end IsPlainKey

theorem readPart?_plain {key : String} (hkey : IsPlainKey key) {c : Char}
    (hc : isKeyChar c = false) :
    readPart? (key.toList ++ c :: rest) = some (key, c :: rest) := by
  have htaken : (key.toList ++ c :: rest).takeWhile isKeyChar = key.toList := by
    rw [List.takeWhile_append_of_pos hkey.plain, List.takeWhile_cons_of_neg (by simp [hc]),
      List.append_nil]
  have hleft : (key.toList ++ c :: rest).dropWhile isKeyChar = c :: rest := by
    rw [List.dropWhile_append_of_pos hkey.plain, List.dropWhile_cons_of_neg (by simp [hc])]
  rw [readPart?.eq_3 _ (hkey.append_ne_cons (by decide) _) (hkey.append_ne_cons (by decide) _),
    htaken, hleft]
  split
  next hnone => exact absurd hnone hkey.nonempty
  next => rw [String.ofList_toList]

theorem readKey?_plain {key : String} (hkey : IsPlainKey key) {c : Char}
    (hc : isKeyChar c = false) (hdot : (dropBlanks (c :: rest)).head? ≠ some '.') :
    readKey? (key.toList ++ c :: rest) = some ([key], dropBlanks (c :: rest)) := by
  rw [readKey?, keyLimit, readParts?, hkey.dropBlanks_append, readPart?_plain hkey hc]
  simp only [Option.bind_eq_bind, Option.bind_some]
  split
  next heq => exact absurd (by rw [heq]; rfl) hdot
  next => rfl

/-! ## Lines -/

theorem readLine?_writeHeader {key : String} (hkey : IsPlainKey key) (rest : List Char) :
    readLine? (writeHeader key ++ rest) = some (.header [key], rest) := by
  have hread : readKey? (key.toList ++ ']' :: '\n' :: rest) =
      some ([key], ']' :: '\n' :: rest) :=
    readKey?_plain hkey (by decide) (by simp [dropBlanks, isBlank])
  have hwritten : writeHeader key ++ rest = '[' :: (key.toList ++ ']' :: '\n' :: rest) := by
    simp [writeHeader]
  rw [hwritten, readLine?.eq_2 _ (hkey.append_ne_cons (by decide) _), hread]
  rfl

theorem readLine?_writeAssignment {key : String} (hkey : IsPlainKey key) {value : Value}
    (hvalue : Spells text value) (rest : List Char) :
    readLine? (writeAssignment key text ++ rest) = some (.assignment [key] value, rest) := by
  have hread : readKey? (key.toList ++ ' ' :: '=' :: ' ' :: (text ++ '\n' :: rest)) =
      some ([key], '=' :: ' ' :: (text ++ '\n' :: rest)) :=
    readKey?_plain hkey (by decide) (by simp [dropBlanks, isBlank])
  have hwritten : writeAssignment key text ++ rest =
      key.toList ++ ' ' :: '=' :: ' ' :: (text ++ '\n' :: rest) := by
    simp [writeAssignment]
  have hdrop : dropBlanks (' ' :: (text ++ '\n' :: rest)) = text ++ '\n' :: rest := by
    obtain ⟨c, tail, rfl, hc⟩ := hvalue.head
    rw [dropBlanks, List.dropWhile_cons_of_pos (by decide), List.cons_append,
      List.dropWhile_cons_of_neg (by simp [hc])]
  rw [hwritten, readLine?.eq_3 _ (fun _ => hkey.append_ne_cons (by decide) _ _)
    (hkey.append_ne_cons (by decide) _), readAssignment?, hread]
  simp only [Option.bind_eq_bind, Option.bind_some]
  rw [hdrop, hvalue.read]
  rfl

theorem readLines?_cons {line : Line} {lines : List Line} {fuel : Nat} {c : Char}
    (hfiller : dropFiller? false (c :: text) = some (c :: text))
    (hline : readLine? (c :: text) = some (line, rest))
    (hrest : readLines? fuel rest = some lines) :
    readLines? (fuel + 1) (c :: text) = some (line :: lines) := by
  rw [readLines?, hfiller]
  simp only [Option.bind_eq_bind, Option.bind_some, hline, hrest]
  rfl

/-- A text of lines, one written after the other. -/
inductive Written : List Char → List Line → Prop where
  | nil : Written [] []
  | blank {text : List Char} {lines : List Line} (hlines : Written text lines) :
      Written ('\n' :: text) lines
  | header {key : String} {text : List Char} {lines : List Line} (hkey : IsPlainKey key)
      (hlines : Written text lines) :
      Written (writeHeader key ++ text) (.header [key] :: lines)
  | assignment {key : String} {spelled : List Char} {value : Value} {text : List Char}
      {lines : List Line} (hkey : IsPlainKey key) (hvalue : Spells spelled value)
      (hlines : Written text lines) :
      Written (writeAssignment key spelled ++ text) (.assignment [key] value :: lines)

/-- Lines are read back from their text. Each of them takes a character at least, which
is what the fuel is for. -/
theorem Written.readLines? {lines : List Line} (hwritten : Written text lines) {fuel : Nat}
    (hfuel : text.length < fuel) : readLines? fuel text = some lines := by
  induction hwritten generalizing fuel with
  | nil =>
      obtain ⟨fuel, rfl⟩ := Nat.exists_eq_add_one_of_ne_zero (Nat.ne_zero_of_lt hfuel)
      rfl
  | @blank text lines _ ih =>
      obtain ⟨fuel, rfl⟩ := Nat.exists_eq_add_one_of_ne_zero (Nat.ne_zero_of_lt hfuel)
      exact ih (Nat.lt_of_succ_lt hfuel)
  | @header key text lines hkey _ ih =>
      obtain ⟨fuel, rfl⟩ := Nat.exists_eq_add_one_of_ne_zero (Nat.ne_zero_of_lt hfuel)
      have hrest : text.length < fuel := by
        simp only [writeHeader, List.length_append, List.length_cons] at hfuel
        omega
      exact readLines?_cons rfl (readLine?_writeHeader hkey text) (ih hrest)
  | @assignment key spelled value text lines hkey hvalue _ ih =>
      obtain ⟨fuel, rfl⟩ := Nat.exists_eq_add_one_of_ne_zero (Nat.ne_zero_of_lt hfuel)
      have hrest : text.length < fuel := by
        simp only [writeAssignment, List.length_append, List.length_cons] at hfuel
        omega
      have hline := readLine?_writeAssignment hkey hvalue text
      have hfiller : dropFiller? false (writeAssignment key spelled ++ text) =
          some (writeAssignment key spelled ++ text) := by
        simp only [writeAssignment, List.append_assoc]
        exact hkey.dropFiller?_append _
      obtain ⟨first, others, hfirst, -⟩ := hkey.exists_head
      have hstart : writeAssignment key spelled ++ text =
          first :: (others ++ ([' ', '=', ' '] ++ (spelled ++ ('\n' :: text)))) := by
        simp [writeAssignment, hfirst]
      rw [hstart] at hline hfiller ⊢
      exact readLines?_cons hfiller hline (ih hrest)

end TenderSearch.Toml
