import TraceJournal.Proofs.Text.Digits
import TraceJournal.Toml.Printer

/-!
# Texts between marks

Every text is read back from its written form, in whichever of the four styles it is written. Inside
a text on several lines a run of one or two marks belongs to the text. What follows a run decides
whether it does, so it is carried along until something else has come.
-/

namespace TraceJournal.Toml

/-! ## Escapes -/

theorem digitValue?_hexDigit {n : Nat} (h : n < 16) : Bytes.digitValue? (hexDigit n) = some n := by
  have all : ∀ n : Fin 16, Bytes.digitValue? (hexDigit n) = some n.val := by decide
  exact all ⟨n, h⟩

/-- The escape of a control character. -/
theorem readEscape_control {c : Char} (h : c.toNat < 128) (rest : List Char) :
    readEscape ('u' :: '0' :: '0' :: hexDigit (c.toNat / 16) :: hexDigit (c.toNat % 16) :: rest) =
      some (c, rest) := by
  have zero : Bytes.digitValue? '0' = some 0 := rfl
  have high : c.toNat / 16 < 16 := by omega
  have low : c.toNat % 16 < 16 := by omega
  have value : c.toNat / 16 * 16 + c.toNat % 16 = c.toNat := by omega
  have valid : c.toNat.isValidChar := c.valid
  simp [readEscape, readCode, zero, digitValue?_hexDigit high, digitValue?_hexDigit low, value,
    valid]

theorem toNat_lt_of_isControl {c : Char} (h : isControl c = true) : c.toNat < 128 := by
  simp only [isControl, Bool.or_eq_true, Bool.and_eq_true, decide_eq_true_eq, beq_iff_eq] at h
  omega

theorem isPlain_of_not_control {c : Char} (h : isControl c = false) (inside : c ≠ '\n') :
    isPlain c = true := by
  simp only [isControl, Bool.or_eq_false_iff, Bool.and_eq_false_iff, decide_eq_false_iff_not,
    bne_eq_false_iff_eq, beq_eq_false_iff_ne] at h
  simp only [isPlain, Bool.or_eq_true, Bool.and_eq_true, decide_eq_true_eq, beq_iff_eq]
  obtain ⟨(large | tab) | feed, not_delete⟩ := h
  · exact .inr ⟨by omega, not_delete⟩
  · exact .inl tab
  · exact absurd feed inside

/-- A character other than a quotation mark is written as it is, or as an escape from which it is
read. An escape is not taken for the end of a line. -/
theorem writeChar_cases (lines : Bool) {c : Char} (h : c ≠ '"') :
    (writeChar lines c = [c] ∧ c ≠ '\\' ∧ c ≠ '\r' ∧
      (isPlain c = true ∨ lines = true ∧ c = '\n')) ∨
    ∃ mark escape, writeChar lines c = '\\' :: mark :: escape ∧ isGap mark = false ∧
      mark ≠ '\n' ∧ mark ≠ '\r' ∧ ∀ rest, readEscape (mark :: escape ++ rest) = some (c, rest) := by
  unfold writeChar
  split
  · next feed =>
    subst feed
    cases lines with
    | true => exact .inl ⟨rfl, by decide, by decide, .inr ⟨rfl, rfl⟩⟩
    | false => exact .inr ⟨'n', [], rfl, by decide, by decide, by decide, fun _ => rfl⟩
  split
  · next backslash =>
    subst backslash
    exact .inr ⟨'\\', [], rfl, by decide, by decide, by decide, fun _ => rfl⟩
  split
  · next backspace =>
    subst backspace
    exact .inr ⟨'b', [], rfl, by decide, by decide, by decide, fun _ => rfl⟩
  split
  · next tabulator =>
    subst tabulator
    exact .inr ⟨'t', [], rfl, by decide, by decide, by decide, fun _ => rfl⟩
  split
  · next form_feed =>
    subst form_feed
    exact .inr ⟨'f', [], rfl, by decide, by decide, by decide, fun _ => rfl⟩
  split
  · next carriage_return =>
    subst carriage_return
    exact .inr ⟨'r', [], rfl, by decide, by decide, by decide, fun _ => rfl⟩
  split
  · next control =>
    have small := toNat_lt_of_isControl control
    exact .inr ⟨'u', _, rfl, by decide, by decide, by decide, readEscape_control small⟩
  · next feed backslash _ _ _ carriage_return control =>
    have plain := isPlain_of_not_control (eq_false_of_ne_true control) feed
    exact .inl ⟨rfl, backslash, carriage_return, .inl plain⟩

/-! ## Runs of marks -/

theorem occursIn_iff {part s : List Char} : occursIn part s = true ↔ part <:+: s := by
  induction s with
  | nil => simp [occursIn]
  | cons c rest ih => simp [occursIn, List.infix_cons_iff, ih]

/-- A reader that goes in rounds takes some characters with the closing marks off `input`, and leaves
`rest`. -/
def Quotes (reader : Nat → Scan (List Char)) (input chars rest : List Char) : Prop :=
  ∀ rounds, input.length ≤ rounds → reader rounds input = some (chars, rest)

/-- A reader takes a run of its mark as a whole: for the end of a text if it is long enough, and
else for a part of it. -/
def CountsMarks (mark : Char) (reader : Nat → Scan (List Char)) : Prop :=
  ∀ rounds rest, reader (rounds + 1) (mark :: rest) =
    let marks := (mark :: rest).takeWhile (· == mark)
    let after := (mark :: rest).dropWhile (· == mark)
    if marks.length < 3 then
      if after.isEmpty then none
      else do
        let (more, rest) ← reader rounds after
        return (marks ++ more, rest)
    else do return (List.replicate (← closing? marks.length) mark, after)

theorem readBasicLines_countsMarks : CountsMarks '"' readBasicLines := by
  intro rounds rest
  rfl

theorem readLiteralLines_countsMarks : CountsMarks '\'' readLiteralLines := by
  intro rounds rest
  rfl

/-- Where no three marks stand next to each other, at most two stand in front. -/
theorem le_two_of_short {mark : Char} {run : Nat} {s : List Char}
    (short : ¬List.replicate 3 mark <:+: List.replicate run mark ++ s) : run ≤ 2 := by
  apply Nat.le_of_not_lt
  intro many
  apply short
  have split : run = 3 + (run - 3) := by omega
  rw [split, ← List.replicate_append_replicate, List.append_assoc]
  exact (List.prefix_append _ _).isInfix

section Marks

variable {mark : Char} {run : Nat} {input chars rest : List Char}

/-- A run of marks with something else behind it. -/
theorem span_marks (run : Nat) (h : ∀ c ∈ rest.head?, c ≠ mark) :
    (List.replicate run mark ++ rest).takeWhile (· == mark) = List.replicate run mark ∧
      (List.replicate run mark ++ rest).dropWhile (· == mark) = rest := by
  have all : ∀ c ∈ List.replicate run mark, (c == mark) = true := by simp
  have stops : ∀ c ∈ rest.head?, (c == mark) = false := by
    intro c hc
    simpa using h c hc
  exact ⟨Text.takeWhile_run all stops, Text.dropWhile_run all stops⟩

variable {reader : Nat → Scan (List Char)}

/-- The closing marks, with at most two marks in front that belong to the text. -/
theorem CountsMarks.closing (counts : CountsMarks mark reader) (few : run ≤ 2)
    (h : ∀ c ∈ rest.head?, c ≠ mark) :
    Quotes reader (List.replicate run mark ++ [mark, mark, mark] ++ rest)
      (List.replicate run mark) rest := by
  intro rounds enough
  have all : List.replicate run mark ++ [mark, mark, mark] = List.replicate (run + 3) mark := by
    rw [← List.replicate_append_replicate]
    rfl
  rw [all] at enough ⊢
  cases rounds with
  | zero => simp at enough
  | succ rounds =>
    have step := counts rounds (List.replicate (run + 2) mark ++ rest)
    rw [← List.cons_append, ← List.replicate_succ, (span_marks _ h).1, (span_marks _ h).2] at step
    dsimp only at step
    have closes : closing? (run + 3) = some run := by
      rw [closing?, if_pos (by omega), Nat.add_sub_cancel]
    rw [step, List.length_replicate, if_neg (by omega), closes]
    rfl

/-- At most two marks that belong to the text, with something else behind them. -/
theorem CountsMarks.inside (counts : CountsMarks mark reader) (few : run ≤ 2)
    (some : input ≠ []) (h : ∀ c ∈ input.head?, c ≠ mark) (quotes : Quotes reader input chars rest) :
    Quotes reader (List.replicate run mark ++ input) (List.replicate run mark ++ chars) rest := by
  cases run with
  | zero => exact quotes
  | succ run =>
    intro rounds enough
    cases rounds with
    | zero => simp at enough
    | succ rounds =>
      have more := quotes rounds (by simp at enough; omega)
      have step := counts rounds (List.replicate run mark ++ input)
      rw [← List.cons_append, ← List.replicate_succ, (span_marks _ h).1, (span_marks _ h).2] at step
      dsimp only at step
      rw [step, List.length_replicate, if_pos (by omega)]
      simp [some, more]

end Marks

theorem skipGaps_of_head {c : Char} (gap : isGap c = false) (rest : List Char) :
    skipGaps (c :: rest) = c :: rest := by
  rw [skipGaps, List.dropWhile_cons_of_neg (by rw [gap]; decide)]

/-! ## The four styles -/

variable {input chars rest : List Char}

/-- One character between quotation marks on one line. -/
theorem Quotes.basic_char (h : Quotes readBasic input chars rest) {c : Char} (mark : c ≠ '"') :
    Quotes readBasic (writeChar false c ++ input) (c :: chars) rest := by
  intro rounds enough
  rcases writeChar_cases false mark with
    ⟨written, escape, -, plain⟩ | ⟨first, escape, written, -, -, -, read⟩
  · rw [written] at enough ⊢
    cases rounds with
    | zero => simp at enough
    | succ rounds =>
      have more := h rounds (by simpa using enough)
      have plain : isPlain c = true := by simpa using plain
      rw [List.singleton_append, readBasic, if_neg mark, if_neg escape, if_pos plain, more]
      rfl
  · rw [written] at enough ⊢
    cases rounds with
    | zero => simp at enough
    | succ rounds =>
      have more := h rounds (by simp at enough; omega)
      have found := read input
      rw [List.cons_append] at found ⊢
      rw [readBasic, if_neg (by decide), if_pos rfl]
      simp [found, more]

theorem quotes_basic (s rest : List Char) (run : Nat) :
    Quotes readBasic (writeChars 0 false run s ++ '"' :: rest) s rest := by
  induction s generalizing run with
  | nil =>
    intro rounds enough
    cases rounds with
    | zero => simp at enough
    | succ rounds => rw [writeChars, List.nil_append, readBasic, if_pos rfl]
  | cons c s ih =>
    rw [writeChars]
    split
    · next mark =>
      subst mark
      rw [if_neg (Nat.not_lt_zero run)]
      intro rounds enough
      cases rounds with
      | zero => simp at enough
      | succ rounds =>
        have more := ih 0 rounds (by simp at enough ⊢; omega)
        rw [List.cons_append, List.cons_append, readBasic, if_neg (by decide), if_pos rfl]
        simp [readEscape, more]
    · next mark =>
      rw [List.append_assoc]
      exact (ih 0).basic_char mark

/-- One character between quotation marks on several lines. -/
theorem Quotes.basicLines_char (h : Quotes readBasicLines input chars rest) {c : Char}
    (mark : c ≠ '"') : Quotes readBasicLines (writeChar true c ++ input) (c :: chars) rest := by
  intro rounds enough
  rcases writeChar_cases true mark with
    ⟨written, escape, carriage, plain⟩ | ⟨first, escape, written, gap, feed, carriage, read⟩
  · rw [written] at enough ⊢
    cases rounds with
    | zero => simp at enough
    | succ rounds =>
      have more := h rounds (by simpa using enough)
      have plain : isPlain c = true ∨ c = '\n' := by simpa using plain
      rw [List.singleton_append, readBasicLines.eq_def]
      dsimp only
      rw [if_neg mark, if_neg escape, if_neg carriage, if_pos plain, more]
      rfl
  · rw [written] at enough ⊢
    cases rounds with
    | zero => simp at enough
    | succ rounds =>
      have more := h rounds (by simp at enough; omega)
      have found := read input
      rw [List.cons_append] at found ⊢
      have stays : skipGaps (first :: escape ++ input) = first :: escape ++ input :=
        skipGaps_of_head gap (escape ++ input)
      rw [readBasicLines.eq_def]
      dsimp only
      rw [if_neg (by decide), if_pos rfl, stays]
      split
      · next same => simp at same; exact absurd same.1 feed
      · next same => simp at same; exact absurd same.1 carriage
      · rw [List.cons_append, found]
        simp [more]

/-- Something other than a quotation mark is written of a character other than that. -/
theorem head_writeChar (lines : Bool) {c : Char} (h : c ≠ '"') (rest : List Char) :
    writeChar lines c ++ rest ≠ [] ∧ ∀ d ∈ (writeChar lines c ++ rest).head?, d ≠ '"' := by
  rcases writeChar_cases lines h with ⟨written, -⟩ | ⟨mark, escape, written, -⟩
  · simp [written, h]
  · simp [written]

/-- A text on several lines between quotation marks, of which a run has just been written. -/
theorem quotes_basicLines (s : List Char) {rest : List Char} (h : ∀ c ∈ rest.head?, c ≠ '"')
    {run : Nat} (few : run ≤ 2) :
    Quotes readBasicLines
      (List.replicate run '"' ++ (writeChars 2 true run s ++ '"' :: '"' :: '"' :: rest))
      (List.replicate run '"' ++ s) rest := by
  induction s generalizing run with
  | nil =>
    have closes := readBasicLines_countsMarks.closing few h
    simpa [writeChars] using closes
  | cons c s ih =>
    rw [writeChars]
    split
    · next mark =>
      subst mark
      split
      · next room =>
        have more := ih (show run + 1 ≤ 2 from room)
        simpa [List.replicate_succ'] using more
      · have more := ih (Nat.zero_le 2)
        refine readBasicLines_countsMarks.inside few (List.cons_ne_nil _ _) (by simp) ?_
        intro rounds enough
        cases rounds with
        | zero => simp at enough
        | succ rounds =>
          have found := more rounds (by simp at enough ⊢; omega)
          simp only [List.replicate_zero, List.nil_append] at found
          rw [List.cons_append, List.cons_append, readBasicLines.eq_def]
          dsimp only
          rw [if_neg (by decide), if_pos rfl]
          simp [skipGaps, isGap, readEscape, found]
    · next mark =>
      rw [List.append_assoc]
      obtain ⟨some, other⟩ := head_writeChar true mark
        (writeChars 2 true 0 s ++ '"' :: '"' :: '"' :: rest)
      exact readBasicLines_countsMarks.inside few some other
        ((ih (Nat.zero_le 2)).basicLines_char mark)

/-- A text between apostrophes on one line. -/
theorem readLiteral_quoted {s : List Char} (plain : ∀ c ∈ s, isPlain c = true ∧ c ≠ '\'')
    (rest : List Char) : readLiteral (s ++ '\'' :: rest) = some (s, rest) := by
  have inside : ∀ c ∈ s, (isPlain c && c != '\'') = true := by
    intro c hc
    simpa using plain c hc
  rw [readLiteral, List.dropWhile_append_of_pos inside, List.takeWhile_append_of_pos inside]
  simp

/-- A text on several lines between apostrophes, of which a run has just been read. -/
theorem quotes_literalLines {s rest : List Char} (h : ∀ c ∈ rest.head?, c ≠ '\'')
    (plain : ∀ c ∈ s, isControl c = false) {run : Nat}
    (short : ¬List.replicate 3 '\'' <:+: List.replicate run '\'' ++ s) :
    Quotes readLiteralLines (List.replicate run '\'' ++ (s ++ '\'' :: '\'' :: '\'' :: rest))
      (List.replicate run '\'' ++ s) rest := by
  induction s generalizing run with
  | nil =>
    have closes := readLiteralLines_countsMarks.closing (le_two_of_short short) h
    simpa using closes
  | cons c s ih =>
    have few := le_two_of_short short
    obtain ⟨first, later⟩ := List.forall_mem_cons.mp plain
    by_cases mark : c = '\''
    · subst mark
      have again : List.replicate run '\'' ++ '\'' :: s = List.replicate (run + 1) '\'' ++ s := by
        simp [List.replicate_succ']
      rw [again] at short
      have more := ih later short
      simpa [List.replicate_succ'] using more
    · have shorter : ¬List.replicate 3 '\'' <:+: List.replicate 0 '\'' ++ s := by
        intro run
        apply short
        exact run.trans (((List.suffix_cons c s).trans (List.suffix_append _ _)).isInfix)
      refine readLiteralLines_countsMarks.inside few (List.cons_ne_nil _ _) (by simpa using mark) ?_
      have more := ih later shorter
      simp only [List.replicate_zero, List.nil_append] at more
      intro rounds enough
      cases rounds with
      | zero => simp at enough
      | succ rounds =>
        have found := more rounds (by simp at enough ⊢; omega)
        have carriage : c ≠ '\r' := by
          rintro rfl
          cases first
        have inside : isPlain c = true ∨ c = '\n' := by
          by_cases feed : c = '\n'
          · exact .inr feed
          · exact .inl (isPlain_of_not_control first feed)
        rw [List.cons_append, readLiteralLines.eq_def]
        dsimp only
        rw [if_neg mark, if_neg carriage, if_pos inside, found]
        rfl

/-! ## Any text -/

/-- A text that is written with escapes. -/
theorem TextStyle.escaped_cases (s : List Char) :
    let style := if s.contains '\n' then basicLines else basic
    style = .basic ∧ '\n' ∉ s ∨ style = .basicLines := by
  by_cases lines : s.contains '\n' = true
  · exact .inr (if_pos lines)
  · refine .inl ⟨if_neg lines, ?_⟩
    simpa using lines

/-- What is known of a text from the style in which it is written. -/
theorem TextStyle.of_cases (s : List Char) :
    (of s = .basic ∧ '\n' ∉ s) ∨ of s = .basicLines ∨
      (of s = .literal ∧ '\n' ∉ s ∧ ∀ c ∈ s, isPlain c = true ∧ c ≠ '\'') ∨
      (of s = .literalLines ∧ (∀ c ∈ s, isControl c = false) ∧ ¬List.replicate 3 '\'' <:+: s) := by
  have escaped := escaped_cases s
  unfold of plain?
  dsimp only at escaped ⊢
  split
  · rw [Option.getD_none]
    exact escaped.imp_right .inl
  next control =>
  have printable : ∀ c ∈ s, isControl c = false := by simpa using control
  split
  · next simple =>
    refine .inl ⟨rfl, ?_⟩
    simp at simple
    exact simple.2
  split
  · next simple =>
    simp only [Bool.and_eq_true, Bool.not_eq_true', List.contains_eq_mem, decide_eq_false_iff_not]
      at simple
    refine .inr (.inr (.inl ⟨rfl, simple.2, ?_⟩))
    intro c hc
    refine ⟨isPlain_of_not_control (printable c hc) ?_, ?_⟩
    · rintro rfl
      exact simple.2 hc
    · rintro rfl
      exact simple.1 hc
  split
  · exact .inr (.inl rfl)
  split
  · next short =>
    refine .inr (.inr (.inr ⟨rfl, printable, ?_⟩))
    rw [Bool.not_eq_true'] at short
    intro run
    rw [hasRun, occursIn_iff.mpr run] at short
    cases short
  · rw [Option.getD_none]
    exact escaped.imp_right .inl

/-- Nothing is passed over in front of a text that does not start on a line of its own. -/
theorem skipFirstEnd_of_head {input : List Char}
    (h : ∀ c ∈ input.head?, c ≠ '\n' ∧ c ≠ '\r') : skipFirstEnd input = input := by
  cases input with
  | nil => rfl
  | cons c rest =>
    obtain ⟨feed, carriage⟩ := h c rfl
    unfold skipFirstEnd
    split
    · next same => exact absurd (List.head_eq_of_cons_eq same) feed
    · next same => exact absurd (List.head_eq_of_cons_eq same) carriage
    · rfl

theorem length_skipFirstEnd_le (input : List Char) :
    (skipFirstEnd input).length ≤ input.length := by
  unfold skipFirstEnd
  split
  · exact Nat.le_succ _
  · exact Nat.le_succ_of_le (Nat.le_succ _)
  · exact Nat.le_refl _

section Opening

variable {input chars rest : List Char}

theorem readText_basic (one : ∀ more, input ≠ '"' :: '"' :: more)
    (quotes : Quotes readBasic input chars rest) :
    readText ('"' :: input) = some (String.ofList chars, rest) := by
  have found := quotes (input.length + 1) (Nat.le_succ _)
  unfold readText
  split
  · next same =>
    rw [List.cons.injEq] at same
    exact absurd same.2 (one _)
  · next same =>
    cases same
    rw [found]
    rfl
  · next same => cases same
  · next same => cases same
  · next other _ _ => exact absurd rfl (other input)

theorem readText_literal (one : ∀ more, input ≠ '\'' :: '\'' :: more)
    (found : readLiteral input = some (chars, rest)) :
    readText ('\'' :: input) = some (String.ofList chars, rest) := by
  unfold readText
  split
  · next same => cases same
  · next same => cases same
  · next same =>
    rw [List.cons.injEq] at same
    exact absurd same.2 (one _)
  · next same =>
    cases same
    rw [found]
    rfl
  · next other => exact absurd rfl (other input)

theorem readText_basicLines (quotes : Quotes readBasicLines (skipFirstEnd input) chars rest) :
    readText ('"' :: '"' :: '"' :: input) = some (String.ofList chars, rest) := by
  have found := quotes (input.length + 1) (Nat.le_succ_of_le (length_skipFirstEnd_le input))
  simp [readText, found]

theorem readText_literalLines (quotes : Quotes readLiteralLines (skipFirstEnd input) chars rest) :
    readText ('\'' :: '\'' :: '\'' :: input) = some (String.ofList chars, rest) := by
  have found := quotes (input.length + 1) (Nat.le_succ_of_le (length_skipFirstEnd_le input))
  simp [readText, found]

end Opening

/-- A text on several lines is read from its first character on, whether it starts on a line of its
own or not. -/
theorem skipFirstEnd_written {s input : List Char}
    (h : '\n' ∉ s → ∀ c ∈ input.head?, c ≠ '\n' ∧ c ≠ '\r') :
    skipFirstEnd ((if s.contains '\n' then ['\n'] else []) ++ input) = input := by
  by_cases lines : s.contains '\n' = true
  · rw [if_pos lines]
    rfl
  · rw [if_neg lines]
    exact skipFirstEnd_of_head (h (by simpa using lines))

section Written

variable (s : List Char) {rest : List Char}

theorem readText_writtenBasic (h : ∀ c ∈ rest.head?, c ≠ '"') :
    readText ('"' :: (writeChars 0 false 0 s ++ '"' :: rest)) = some (String.ofList s, rest) := by
  refine readText_basic ?_ (quotes_basic s rest 0)
  intro more same
  cases s with
  | nil =>
    rw [writeChars, List.nil_append, List.cons.injEq] at same
    rw [same.2] at h
    exact h '"' rfl rfl
  | cons c s =>
    by_cases mark : c = '"'
    · simp [writeChars, mark] at same
    · have other := (head_writeChar false mark (writeChars 0 false 0 s ++ '"' :: rest)).2
      rw [writeChars, if_neg mark, List.append_assoc] at same
      rw [same] at other
      exact other '"' rfl rfl

theorem readText_writtenLiteral (plain : ∀ c ∈ s, isPlain c = true ∧ c ≠ '\'')
    (h : ∀ c ∈ rest.head?, c ≠ '\'') :
    readText ('\'' :: (s ++ '\'' :: rest)) = some (String.ofList s, rest) := by
  refine readText_literal ?_ (readLiteral_quoted plain rest)
  intro more same
  cases s with
  | nil =>
    rw [List.nil_append, List.cons.injEq] at same
    rw [same.2] at h
    exact h '\'' rfl rfl
  | cons c s =>
    rw [List.cons_append, List.cons.injEq] at same
    exact (plain c List.mem_cons_self).2 same.1

theorem readText_writtenBasicLines (h : ∀ c ∈ rest.head?, c ≠ '"') :
    readText ('"' :: '"' :: '"' :: ((if s.contains '\n' then ['\n'] else []) ++
      (writeChars 2 true 0 s ++ '"' :: '"' :: '"' :: rest))) = some (String.ofList s, rest) := by
  apply readText_basicLines
  rw [skipFirstEnd_written]
  · exact quotes_basicLines s h (Nat.zero_le 2)
  · intro one
    cases s with
    | nil => simp [writeChars]
    | cons c s =>
      by_cases mark : c = '"'
      · simp [writeChars, mark]
      · have feed : c ≠ '\n' := by
          rintro rfl
          exact one List.mem_cons_self
        rw [writeChars, if_neg mark]
        rcases writeChar_cases true mark with ⟨written, -, carriage, -⟩ | ⟨_, _, written, -⟩
        · simp [written, feed, carriage]
        · simp [written]

theorem readText_writtenLiteralLines (plain : ∀ c ∈ s, isControl c = false)
    (short : ¬List.replicate 3 '\'' <:+: s) (h : ∀ c ∈ rest.head?, c ≠ '\'') :
    readText ('\'' :: '\'' :: '\'' :: ((if s.contains '\n' then ['\n'] else []) ++
      (s ++ '\'' :: '\'' :: '\'' :: rest))) = some (String.ofList s, rest) := by
  apply readText_literalLines
  rw [skipFirstEnd_written]
  · have few : ¬List.replicate 3 '\'' <:+: List.replicate 0 '\'' ++ s := short
    exact quotes_literalLines h plain few
  · intro one
    cases s with
    | nil => simp
    | cons c s =>
      have printable := plain c List.mem_cons_self
      have feed : c ≠ '\n' := by
        rintro rfl
        exact one List.mem_cons_self
      have carriage : c ≠ '\r' := by
        rintro rfl
        cases printable
      simp [feed, carriage]

/-- Every text is read back from its written form, if no mark stands behind that. -/
theorem readText_writeText (h : ∀ c ∈ rest.head?, c ≠ '"' ∧ c ≠ '\'') :
    readText (writeText s ++ rest) = some (String.ofList s, rest) := by
  have basic : ∀ c ∈ rest.head?, c ≠ '"' := fun c hc => (h c hc).1
  have literal : ∀ c ∈ rest.head?, c ≠ '\'' := fun c hc => (h c hc).2
  rcases TextStyle.of_cases s with ⟨style, one⟩ | style | ⟨style, one, plain⟩ | ⟨style, plain, short⟩
  · have read := readText_writtenBasic s basic
    simpa [writeText, style, TextStyle.mark, TextStyle.body, one] using read
  · have read := readText_writtenBasicLines s basic
    simpa [writeText, style, TextStyle.mark, TextStyle.body] using read
  · have read := readText_writtenLiteral s plain literal
    simpa [writeText, style, TextStyle.mark, TextStyle.body, one] using read
  · have read := readText_writtenLiteralLines s plain short literal
    simpa [writeText, style, TextStyle.mark, TextStyle.body] using read

end Written

end TraceJournal.Toml
