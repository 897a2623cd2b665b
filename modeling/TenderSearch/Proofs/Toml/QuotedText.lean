import TenderSearch.Toml.Printer
import TenderSearch.Toml.Text

/-!
# Strings in TOML text

Every string is read back from the way it is written in. Between quotes this is
because each character is read back from its escape; on several lines, up to two
marks of the delimiter may stand in front of any other character, and in front of
the delimiter.
-/

namespace TenderSearch.Toml

open Json.Token (hex4?)
open Toml.Text (basic? basicLines? literal? literalLines? cons? isControl scalar? shortEscape?)

/-! ## Escapes -/

/-- The code of a character is read as the character. -/
theorem scalar?_of_needsCode {c : Char} (hc : needsCode c = true) :
    (hex4? '0' '0' (hexDigit (c.toNat / 16)) (hexDigit c.toNat)).bind scalar? = some c := by
  have hcodes : ∀ n < 128,
      (hex4? '0' '0' (hexDigit (n / 16)) (hexDigit n)).bind scalar? = some (Char.ofNat n) := by
    decide
  have hsmall : c.toNat < 128 := by
    simp only [needsCode, Bool.and_eq_true, Bool.or_eq_true, decide_eq_true_eq] at hc
    omega
  rw [hcodes _ hsmall, Char.ofNat_toNat]

theorem isControl_eq_needsCode {c : Char} (hc : c ≠ '\n') : isControl c = needsCode c := by
  simp [isControl, needsCode, hc]

/-- A character is escaped by a letter or by its code, or it stands for itself. -/
theorem escape_cases (lines : Bool) (c : Char) :
    (∃ letter, escape lines c = ['\\', letter] ∧ shortEscape? letter = some c) ∨
    (escape lines c = ['\\', 'u', '0', '0', hexDigit (c.toNat / 16), hexDigit c.toNat] ∧
      needsCode c = true) ∨
    (escape lines c = [c] ∧
      (c ≠ '\\' ∧ isControl c = false ∨ lines = true ∧ c = '\n')) := by
  by_cases hletter : c = '\x08' ∨ c = '\t' ∨ c = '\x0c' ∨ c = '\r' ∨ c = '\\'
  · left
    rcases hletter with rfl | rfl | rfl | rfl | rfl
    all_goals exact ⟨_, rfl, rfl⟩
  · simp only [not_or] at hletter
    obtain ⟨hb, ht, hf, hr, hbackslash⟩ := hletter
    by_cases hn : c = '\n'
    · subst hn
      cases lines with
      | false => exact .inl ⟨_, rfl, rfl⟩
      | true => exact .inr (.inr ⟨rfl, .inr ⟨rfl, rfl⟩⟩)
    · right
      have hescape : escape lines c = if needsCode c then
          ['\\', 'u', '0', '0', hexDigit (c.toNat / 16), hexDigit c.toNat] else [c] := by
        simp only [escape, hb, ht, hn, hf, hr, hbackslash, if_false]
      cases hcode : needsCode c with
      | true => exact .inl ⟨by rw [hescape, hcode, if_pos rfl], rfl⟩
      | false =>
          refine .inr ⟨by rw [hescape, hcode]; rfl, .inl ⟨hbackslash, ?_⟩⟩
          rw [isControl_eq_needsCode hn, hcode]

/-- No escape starts with a quote. -/
theorem head?_escape_ne_quote (lines : Bool) {c : Char} (hc : c ≠ '"') (rest : List Char) :
    (escape lines c ++ rest).head? ≠ some '"' := by
  rcases escape_cases lines c with ⟨letter, hescape, -⟩ | ⟨hescape, -⟩ | ⟨hescape, -⟩
  · simp [hescape]
  · simp [hescape]
  · simpa [hescape] using hc

/-- The letters of codes are not those of other escapes. -/
theorem ne_of_shortEscape? {letter c : Char} (hletter : shortEscape? letter = some c) :
    letter ≠ 'u' ∧ letter ≠ 'U' := by
  constructor
  · rintro rfl
    cases hletter
  · rintro rfl
    cases hletter

namespace Text

variable {content text rest : List Char} {c : Char}

/-! ## One line -/

theorem basic?_letter {letter : Char} (hletter : shortEscape? letter = some c)
    (htext : basic? text = some (content, rest)) :
    basic? ('\\' :: letter :: text) = some (c :: content, rest) := by
  obtain ⟨hu, hU⟩ := ne_of_shortEscape? hletter
  rw [basic?.eq_def]
  simp [hu, hU, hletter, htext, cons?]

theorem basic?_escape (hc : c ≠ '"') (htext : basic? text = some (content, rest)) :
    basic? (escape false c ++ text) = some (c :: content, rest) := by
  rcases escape_cases false c with ⟨letter, hescape, hletter⟩ | ⟨hescape, hcode⟩ |
    ⟨hescape, ⟨hbackslash, hcontrol⟩ | ⟨⟨⟩, -⟩⟩
  · rw [hescape]
    exact basic?_letter hletter htext
  · have hread : basic? (escape false c ++ text) =
        cons? ((hex4? '0' '0' (hexDigit (c.toNat / 16)) (hexDigit c.toNat)).bind scalar?)
          (basic? text) := by
      rw [hescape]
      rfl
    rw [hread, scalar?_of_needsCode hcode, htext]
    rfl
  · rw [hescape, List.singleton_append, basic?.eq_def]
    simp [hbackslash, hcontrol, htext, cons?]

theorem basic?_escapeAll (content : List Char) (run : Nat) (rest : List Char) :
    basic? (escapeAll false run content ++ '"' :: rest) = some (content, rest) := by
  induction content generalizing run with
  | nil => rfl
  | cons c content ih =>
      by_cases hc : c = '"'
      · subst hc
        exact basic?_letter rfl (ih 0)
      · rw [escapeAll, if_neg hc, List.append_assoc]
        exact basic?_escape hc (ih 0)

theorem literal?_content (hcontent : ∀ c ∈ content, c ≠ '\'' ∧ isControl c = false)
    (rest : List Char) : literal? (content ++ '\'' :: rest) = some (content, rest) := by
  induction content with
  | nil => rfl
  | cons c content ih =>
      obtain ⟨⟨hmark, hcontrol⟩, hcontent⟩ := List.forall_mem_cons.mp hcontent
      rw [List.cons_append, literal?.eq_def]
      simp [hcontrol, ih hcontent, cons?]

/-! ## Several lines -/

/-- One more mark behind a run of marks. -/
theorem replicate_append_cons (mark : Char) (run : Nat) (text : List Char) :
    List.replicate run mark ++ mark :: text = List.replicate (run + 1) mark ++ text := by
  rw [List.replicate_succ', List.append_assoc, List.singleton_append]

/-- A reader of strings on several lines: up to two marks of the delimiter stand for
themselves in front of another character, and in front of the three that end the string. -/
structure TakesMarks (mark : Char) (read : List Char → Option (List Char × List Char)) :
    Prop where
  nil : read [] = none
  one {c : Char} (hc : c ≠ mark) (text : List Char) :
    read (mark :: c :: text) = cons? (some mark) (read (c :: text))
  two {c : Char} (hc : c ≠ mark) (text : List Char) :
    read (mark :: mark :: c :: text) = cons? (some mark) (read (mark :: c :: text))
  three {rest : List Char} (hrest : rest.head? ≠ some mark) :
    read (mark :: mark :: mark :: rest) = some ([], rest)
  four {rest : List Char} (hrest : rest.head? ≠ some mark) :
    read (mark :: mark :: mark :: mark :: rest) = some ([mark], rest)
  five (rest : List Char) :
    read (mark :: mark :: mark :: mark :: mark :: rest) = some ([mark, mark], rest)

namespace TakesMarks

variable {mark : Char} {read : List Char → Option (List Char × List Char)} {run : Nat}

theorem read_pending (hread : TakesMarks mark read) (hrun : run ≤ 2)
    (hhead : text.head? ≠ some mark) (htext : read text = some (content, rest)) :
    read (List.replicate run mark ++ text) = some (List.replicate run mark ++ content, rest) := by
  cases text with
  | nil =>
      rw [hread.nil] at htext
      cases htext
  | cons c text =>
      have hc : c ≠ mark := by simpa using hhead
      have hone : read (mark :: c :: text) = some (mark :: content, rest) := by
        rw [hread.one hc, htext]
        rfl
      have htwo : read (mark :: mark :: c :: text) = some (mark :: mark :: content, rest) := by
        rw [hread.two hc, hone]
        rfl
      match run, hrun with
      | 0, _ => exact htext
      | 1, _ => exact hone
      | 2, _ => exact htwo

theorem read_close (hread : TakesMarks mark read) (hrun : run ≤ 2)
    (hrest : rest.head? ≠ some mark) :
    read (List.replicate run mark ++ mark :: mark :: mark :: rest) =
      some (List.replicate run mark, rest) := by
  match run, hrun with
  | 0, _ => exact hread.three hrest
  | 1, _ => exact hread.four hrest
  | 2, _ => exact hread.five rest

end TakesMarks

theorem takesMarks_basicLines? : TakesMarks '"' (basicLines? .no) where
  nil := rfl
  one hc text := by
    rw [basicLines?.eq_def]
    simp [hc, isControl, isBlank]
  two hc text := by
    rw [basicLines?.eq_def]
    simp [hc, isControl, isBlank]
  three {rest} hrest := by
    cases rest with
    | nil => rfl
    | cons c rest =>
        have hc : c ≠ '"' := by simpa using hrest
        rw [basicLines?.eq_def]
        simp [hc, isBlank]
  four {rest} hrest := by
    cases rest with
    | nil => rfl
    | cons c rest =>
        have hc : c ≠ '"' := by simpa using hrest
        rw [basicLines?.eq_def]
        simp [hc, isBlank]
  five _ := rfl

theorem basicLines?_letter {letter : Char} (hletter : shortEscape? letter = some c)
    (htext : basicLines? .no text = some (content, rest)) :
    basicLines? .no ('\\' :: letter :: text) = some (c :: content, rest) := by
  obtain ⟨hu, hU⟩ := ne_of_shortEscape? hletter
  rw [basicLines?.eq_def]
  simp [hu, hU, hletter, htext, cons?, isBlank]

theorem basicLines?_escape (hc : c ≠ '"') (htext : basicLines? .no text = some (content, rest)) :
    basicLines? .no (escape true c ++ text) = some (c :: content, rest) := by
  rcases escape_cases true c with ⟨letter, hescape, hletter⟩ | ⟨hescape, hcode⟩ |
    ⟨hescape, ⟨hbackslash, hcontrol⟩ | ⟨-, rfl⟩⟩
  · rw [hescape]
    exact basicLines?_letter hletter htext
  · have hread : basicLines? .no (escape true c ++ text) =
        cons? ((hex4? '0' '0' (hexDigit (c.toNat / 16)) (hexDigit c.toNat)).bind scalar?)
          (basicLines? .no text) := by
      rw [hescape]
      rfl
    rw [hread, scalar?_of_needsCode hcode, htext]
    rfl
  · have hn : c ≠ '\n' := by
      rintro rfl
      cases hcontrol
    have hr : c ≠ '\r' := by
      rintro rfl
      cases hcontrol
    rw [hescape, List.singleton_append, basicLines?.eq_def]
    simp [hc, hr, hbackslash, hcontrol, htext, cons?]
  · have hread : basicLines? .no ('\n' :: text) = cons? (some '\n') (basicLines? .no text) := rfl
    rw [hescape, List.singleton_append, hread, htext]
    rfl

/-- The quotes that are pending stand in front of the text for as long as no other
character follows them. -/
theorem basicLines?_escapeAll (content : List Char) {run : Nat} (hrun : run ≤ 2)
    (hrest : rest.head? ≠ some '"') :
    basicLines? .no (List.replicate run '"' ++ (escapeAll true run content ++
      '"' :: '"' :: '"' :: rest)) = some (List.replicate run '"' ++ content, rest) := by
  induction content generalizing run with
  | nil =>
      rw [List.append_nil]
      exact takesMarks_basicLines?.read_close hrun hrest
  | cons c content ih =>
      have hafter : basicLines? .no (escapeAll true 0 content ++ '"' :: '"' :: '"' :: rest) =
          some (content, rest) := ih (Nat.zero_le 2)
      by_cases hc : c = '"'
      · subst hc
        by_cases hpending : run < 2
        · have hsplit : ∀ text, List.replicate run '"' ++ '"' :: text =
              List.replicate (run + 1) '"' ++ text := fun text => by
            rw [List.replicate_succ', List.append_assoc, List.singleton_append]
          have hwritten : escapeAll true run ('"' :: content) =
              '"' :: escapeAll true (run + 1) content := by
            simp [escapeAll, hpending]
          rw [hwritten, List.cons_append, replicate_append_cons, replicate_append_cons]
          exact ih hpending
        · have hwritten : escapeAll true run ('"' :: content) =
              '\\' :: '"' :: escapeAll true 0 content := by
            simp [escapeAll, hpending]
          rw [hwritten]
          exact takesMarks_basicLines?.read_pending hrun (by simp) (basicLines?_letter rfl hafter)
      · rw [escapeAll, if_neg hc, List.append_assoc]
        exact takesMarks_basicLines?.read_pending hrun (head?_escape_ne_quote true hc _)
          (basicLines?_escape hc hafter)

theorem le_longestRun (mark : Char) (current : Nat) (content : List Char) :
    current ≤ longestRun mark current content := by
  induction content generalizing current with
  | nil => exact Nat.le_refl _
  | cons c content ih =>
      unfold longestRun
      split
      · exact Nat.le_of_succ_le (ih (current + 1))
      · exact Nat.le_max_left _ _

theorem takesMarks_literalLines? : TakesMarks '\'' literalLines? where
  nil := rfl
  one hc text := by
    rw [literalLines?.eq_def]
    simp [hc, isControl]
  two hc text := by
    rw [literalLines?.eq_def]
    simp [hc, isControl]
  three {rest} hrest := by
    cases rest with
    | nil => rfl
    | cons c rest =>
        have hc : c ≠ '\'' := by simpa using hrest
        rw [literalLines?.eq_def]
        simp [hc]
  four {rest} hrest := by
    cases rest with
    | nil => rfl
    | cons c rest =>
        have hc : c ≠ '\'' := by simpa using hrest
        rw [literalLines?.eq_def]
        simp [hc]
  five _ := rfl

theorem literalLines?_content (hcodes : ∀ c ∈ content, needsCode c = false) {run : Nat}
    (hruns : longestRun '\'' run content ≤ 2) (hrest : rest.head? ≠ some '\'') :
    literalLines? (List.replicate run '\'' ++ (content ++ '\'' :: '\'' :: '\'' :: rest)) =
      some (List.replicate run '\'' ++ content, rest) := by
  induction content generalizing run with
  | nil =>
      rw [List.append_nil]
      exact takesMarks_literalLines?.read_close hruns hrest
  | cons c content ih =>
      obtain ⟨hcode, hcontent⟩ := List.forall_mem_cons.mp hcodes
      by_cases hc : c = '\''
      · subst hc
        rw [List.cons_append, replicate_append_cons, replicate_append_cons]
        exact ih hcontent hruns
      · rw [longestRun, if_neg hc, Nat.max_le] at hruns
        have hafter : literalLines? (content ++ '\'' :: '\'' :: '\'' :: rest) =
            some (content, rest) := ih hcontent hruns.2
        apply takesMarks_literalLines?.read_pending hruns.1
        · simpa using hc
        · rw [List.cons_append, literalLines?.eq_def]
          by_cases hn : c = '\n'
          · subst hn
            simp [hafter, cons?]
          · have hcontrol : isControl c = false := by rw [isControl_eq_needsCode hn, hcode]
            have hr : c ≠ '\r' := by
              rintro rfl
              cases hcontrol
            simp [hc, hr, hcontrol, hafter, cons?]

theorem ne_of_longestRun_eq_zero {mark : Char} (hnone : longestRun mark 0 content = 0) :
    ∀ c ∈ content, c ≠ mark := by
  induction content with
  | nil => exact fun c hc => nomatch hc
  | cons c content ih =>
      unfold longestRun at hnone
      split at hnone
      next =>
        have hpending := le_longestRun mark (0 + 1) content
        omega
      next hc =>
        have hafter : longestRun mark 0 content = 0 := by omega
        exact List.forall_mem_cons.mpr ⟨hc, ih hafter⟩

theorem dropLineBreak_of_head? (hn : text.head? ≠ some '\n') (hr : text.head? ≠ some '\r') :
    dropLineBreak text = text := by
  cases text with
  | nil => rfl
  | cons c text =>
      have hcn : c ≠ '\n' := by simpa using hn
      have hcr : c ≠ '\r' := by simpa using hr
      rw [dropLineBreak.eq_def]
      simp [hcn, hcr]

/-! ## Strings of every kind -/

/-- What stands behind a string does not go on with a mark of a delimiter. -/
structure EndsText (rest : List Char) : Prop where
  quote : rest.head? ≠ some '"'
  apostrophe : rest.head? ≠ some '\''

theorem read?_basic (content : List Char) (hrest : EndsText rest) :
    read? (Quoting.basic.write content ++ rest) = some (String.ofList content, rest) := by
  have hwritten : Quoting.basic.write content ++ rest =
      '"' :: (escapeAll false 0 content ++ '"' :: rest) := by
    simp [Quoting.write, Quoting.delimiter, Quoting.body]
  -- Only the closing quote of an empty string directly follows the opening one.
  have hopening : ∀ text, escapeAll false 0 content ++ '"' :: rest ≠ '"' :: '"' :: text := by
    intro text htext
    cases content with
    | nil =>
        cases htext
        exact hrest.quote rfl
    | cons c content =>
        by_cases hc : c = '"'
        · subst hc
          cases htext
        · rw [escapeAll, if_neg hc, List.append_assoc] at htext
          apply head?_escape_ne_quote false hc (escapeAll false 0 content ++ '"' :: rest)
          rw [htext]
          rfl
  rw [hwritten, read?.eq_2 _ (fun text htext => hopening text htext), basic?_escapeAll]
  rfl

theorem read?_literal (hcontent : ∀ c ∈ content, c ≠ '\'' ∧ isControl c = false)
    (hrest : EndsText rest) :
    read? (Quoting.literal.write content ++ rest) = some (String.ofList content, rest) := by
  have hwritten : Quoting.literal.write content ++ rest =
      '\'' :: (content ++ '\'' :: rest) := by
    simp [Quoting.write, Quoting.delimiter, Quoting.body]
  have hopening : ∀ text, content ++ '\'' :: rest ≠ '\'' :: '\'' :: text := by
    intro text htext
    cases content with
    | nil =>
        cases htext
        exact hrest.apostrophe rfl
    | cons c content =>
        obtain ⟨rfl, -⟩ := List.cons.inj htext
        exact (hcontent '\'' List.mem_cons_self).1 rfl
  rw [hwritten, read?.eq_4 _ (fun text htext => hopening text htext), literal?_content hcontent]
  rfl

/-- A string on several lines that has none starts with its first character. -/
theorem head?_escapeAll_of_not_mem (hcontent : '\n' ∉ content) (rest : List Char) :
    (escapeAll true 0 content ++ '"' :: rest).head? ≠ some '\n' ∧
      (escapeAll true 0 content ++ '"' :: rest).head? ≠ some '\r' := by
  cases content with
  | nil => simp [escapeAll]
  | cons c content =>
      by_cases hc : c = '"'
      · subst hc
        simp [escapeAll]
      · rw [escapeAll, if_neg hc]
        rcases escape_cases true c with ⟨letter, hescape, -⟩ | ⟨hescape, -⟩ |
          ⟨hescape, ⟨-, hcontrol⟩ | ⟨-, rfl⟩⟩
        · simp [hescape]
        · simp [hescape]
        · rw [hescape]
          constructor
          · rintro ⟨⟩
            cases hcontrol
          · rintro ⟨⟩
            cases hcontrol
        · exact absurd List.mem_cons_self hcontent

theorem read?_basicLines (content : List Char) (hrest : EndsText rest) :
    read? (Quoting.basicLines.write content ++ rest) = some (String.ofList content, rest) := by
  have hbody : basicLines? .no (escapeAll true 0 content ++ '"' :: '"' :: '"' :: rest) =
      some (content, rest) := basicLines?_escapeAll content (Nat.zero_le 2) hrest.quote
  have hopening : dropLineBreak (Quoting.basicLines.body content ++ '"' :: '"' :: '"' :: rest) =
      escapeAll true 0 content ++ '"' :: '"' :: '"' :: rest := by
    by_cases hn : '\n' ∈ content
    · simp [Quoting.body, hn, dropLineBreak]
    · obtain ⟨hheadn, hheadr⟩ := head?_escapeAll_of_not_mem hn ('"' :: '"' :: rest)
      simp only [Quoting.body, List.contains_iff_mem, hn, if_false, List.nil_append]
      exact dropLineBreak_of_head? hheadn hheadr
  have hread : read? (Quoting.basicLines.write content ++ rest) = read?.finish
      (basicLines? .no (dropLineBreak (Quoting.basicLines.body content ++
        '"' :: '"' :: '"' :: rest))) := by
    rw [Quoting.write, List.append_assoc, List.append_assoc]
    rfl
  rw [hread, hopening, hbody]
  rfl

theorem read?_literalLines (hcodes : ∀ c ∈ content, needsCode c = false)
    (hruns : longestRun '\'' 0 content ≤ 2) (hrest : EndsText rest) :
    read? (Quoting.literalLines.write content ++ rest) = some (String.ofList content, rest) := by
  have hbody : literalLines? (content ++ '\'' :: '\'' :: '\'' :: rest) =
      some (content, rest) := literalLines?_content hcodes hruns hrest.apostrophe
  have hopening : dropLineBreak (Quoting.literalLines.body content ++
      '\'' :: '\'' :: '\'' :: rest) = content ++ '\'' :: '\'' :: '\'' :: rest := by
    by_cases hn : '\n' ∈ content
    · simp [Quoting.body, hn, dropLineBreak]
    · simp only [Quoting.body, List.contains_iff_mem, hn, if_false, List.nil_append]
      cases content with
      | nil => rfl
      | cons c content =>
          apply dropLineBreak_of_head?
          · rintro ⟨⟩
            exact hn List.mem_cons_self
          · rintro ⟨⟩
            exact absurd (hcodes '\r' List.mem_cons_self) (by decide)
  have hread : read? (Quoting.literalLines.write content ++ rest) = read?.finish
      (literalLines? (dropLineBreak (Quoting.literalLines.body content ++
        '\'' :: '\'' :: '\'' :: rest))) := by
    rw [Quoting.write, List.append_assoc, List.append_assoc]
    rfl
  rw [hread, hopening, hbody]
  rfl

/-- A string is read back from the way it is written in. -/
theorem read?_writeText (s : String) (hrest : EndsText rest) :
    read? (writeText s ++ rest) = some (s, rest) := by
  have hcodes (hnone : s.toList.any needsCode = false) : ∀ c ∈ s.toList, needsCode c = false :=
    by simpa using hnone
  have hread : read? ((Quoting.of s.toList).write s.toList ++ rest) =
      some (String.ofList s.toList, rest) := by
    unfold Quoting.of
    dsimp only
    split
    · exact read?_basic _ hrest
    split
    next hliteral =>
      simp only [Bool.and_eq_true, Bool.not_eq_true', decide_eq_true_eq] at hliteral
      obtain ⟨⟨hnone, happ⟩, hlines⟩ := hliteral
      apply read?_literal _ hrest
      intro c hc
      have hn : c ≠ '\n' := by
        rintro rfl
        simp [hc] at hlines
      rw [isControl_eq_needsCode hn]
      exact ⟨ne_of_longestRun_eq_zero happ c hc, hcodes hnone c hc⟩
    split
    · exact read?_basicLines _ hrest
    split
    next hliteral =>
      simp only [Bool.and_eq_true, Bool.not_eq_true', decide_eq_true_eq] at hliteral
      exact read?_literalLines (hcodes hliteral.1) hliteral.2 hrest
    split
    · exact read?_basicLines _ hrest
    · exact read?_basic _ hrest
  rw [writeText, hread, String.ofList_toList]

end Text

end TenderSearch.Toml
