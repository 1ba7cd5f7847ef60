import TraceJournal.Proofs.Number.Shortest
import TraceJournal.Proofs.Text.Digits
import TraceJournal.Proofs.Toml.Quoted
import TraceJournal.Toml.Reader

/-!
# Written values

Every value that has a written form is read back from it. Behind a value stands the end of its line,
or a comma or a bracket of the array that it is in; none of them can be taken for a part of it.
-/

namespace TraceJournal.Toml

/-- What can stand behind a value. -/
def endsValue (c : Char) : Bool := c == '\n' || c == ',' || c == ']'

/-- A text that goes on with something that can stand behind a value. -/
def EndsValue (rest : List Char) : Prop := ∃ c more, rest = c :: more ∧ endsValue c = true

theorem endsValue_cases {c : Char} (h : endsValue c = true) : c = '\n' ∨ c = ',' ∨ c = ']' := by
  simpa [endsValue, or_assoc] using h

theorem EndsValue.head {rest : List Char} (h : EndsValue rest) :
    ∀ c ∈ rest.head?, endsValue c = true := by
  obtain ⟨c, more, rfl, ends⟩ := h
  simpa using ends

theorem not_digit_of_endsValue {c : Char} (h : endsValue c = true) :
    c.isDigit = false ∧ c ≠ '-' ∧ c ≠ ':' := by
  rcases endsValue_cases h with rfl | rfl | rfl
  all_goals decide

/-! ## Integers -/

section Digits

variable {digits rest : List Char}

theorem readDigits_append (all : ∀ c ∈ digits, c.isDigit = true) (h : EndsValue rest) {rounds : Nat}
    (enough : digits.length ≤ rounds) :
    readDigits Char.isDigit rounds (digits ++ rest) = some (digits, rest) := by
  induction digits generalizing rounds with
  | nil =>
    obtain ⟨c, more, rfl, ends⟩ := h
    cases rounds with
    | zero => rfl
    | succ rounds =>
      rcases endsValue_cases ends with rfl | rfl | rfl
      all_goals simp [readDigits]
  | cons d digits ih =>
    obtain ⟨first, later⟩ := List.forall_mem_cons.mp all
    cases rounds with
    | zero => cases enough
    | succ rounds =>
      have more := ih later (Nat.le_of_succ_le_succ enough)
      have other : d ≠ '_' := by
        rintro rfl
        cases first
      rw [List.cons_append, readDigits]
      · rw [if_pos first, more]
        rfl
      · exact fun _ _ same _ => other same
      · exact fun same _ => other same

theorem readSomeDigits_append (all : ∀ c ∈ digits, c.isDigit = true) (some : digits ≠ [])
    (h : EndsValue rest) :
    readSomeDigits Char.isDigit (digits ++ rest) = Option.some (digits, rest) := by
  cases digits with
  | nil => exact absurd rfl some
  | cons d digits =>
    obtain ⟨first, later⟩ := List.forall_mem_cons.mp all
    have enough : digits.length ≤ (digits ++ rest).length := by simp
    have more := readDigits_append later h enough
    rw [List.cons_append, readSomeDigits, if_pos first, more]
    rfl

/-- Digits are not taken for a date if no dash stands behind them. -/
theorem startsDate_digits (all : ∀ c ∈ digits, c.isDigit = true) (h : EndsValue rest) :
    startsDate (digits ++ rest) = false := by
  obtain ⟨c, more, rfl, ends⟩ := h
  obtain ⟨other, dash, -⟩ := not_digit_of_endsValue ends
  apply eq_false_of_ne_true
  intro date
  simp only [startsDate, Bool.and_eq_true, List.all_eq_true, beq_iff_eq] at date
  obtain ⟨⟨-, year⟩, fifth⟩ := date
  rcases Nat.lt_trichotomy digits.length 4 with short | four | long
  · have inside : c ∈ (digits ++ c :: more).take 4 := by
      rw [List.take_append, List.take_of_length_le (Nat.le_of_lt short)]
      refine List.mem_append_right _ ?_
      obtain ⟨k, hk⟩ := Nat.exists_eq_succ_of_ne_zero (n := 4 - digits.length) (by omega)
      rw [hk, List.take_succ_cons]
      exact List.mem_cons_self
    rw [year c inside] at other
    cases other
  · rw [List.getElem?_append_right (by omega), four] at fifth
    simp at fifth
    exact dash fifth
  · rw [List.getElem?_append_left long, List.getElem?_eq_getElem long] at fifth
    simp at fifth
    have digit := all _ (List.getElem_mem long)
    rw [fifth] at digit
    cases digit

theorem readPair_eq {low high n : Nat} {input : List Char}
    (h : readPair low high input = some (n, rest)) :
    ∃ a b, input = a :: b :: rest ∧ a.isDigit = true ∧ b.isDigit = true := by
  unfold readPair at h
  split at h
  · split at h
    · next pair =>
      cases h
      exact ⟨_, _, rfl, pair.1, pair.2.1⟩
    · cases h
  · cases h

/-- Digits are not taken for a time of day if no colon stands behind them. -/
theorem startsTime_digits (all : ∀ c ∈ digits, c.isDigit = true) (h : EndsValue rest) :
    startsTime (digits ++ rest) = false := by
  obtain ⟨c, more, rfl, ends⟩ := h
  unfold startsTime
  split
  · next pair =>
    obtain ⟨a, b, same, first, second⟩ := readPair_eq pair
    obtain ⟨other, -, colon⟩ := not_digit_of_endsValue ends
    -- The character behind the digits would be one of the two digits, or the colon.
    rcases digits with _ | ⟨d, _ | ⟨e, _ | ⟨f, digits⟩⟩⟩
    · simp at same
      rw [same.1, first] at other
      cases other
    · simp at same
      rw [same.2.1, second] at other
      cases other
    · simp at same
      exact absurd same.2.2.1 colon
    · simp at same
      have digit := all f (by simp)
      rw [same.2.2.1] at digit
      cases digit
  · rfl

end Digits

theorem readWhole_decimal (n : Nat) {rest : List Char} (h : EndsValue rest) :
    readWhole (Text.decimal n ++ rest) = some (Text.decimal n, rest) := by
  have all : ∀ c ∈ Text.decimal n, c.isDigit = true := fun c hc => Text.isDigit_of_mem_decimal hc
  have read := readSomeDigits_append all (Text.decimal_ne_nil n) h
  by_cases zero : n = 0
  · subst zero
    rfl
  · obtain ⟨c, more, front, other⟩ := Text.head_decimal_ne_zero zero
    rw [front, List.cons_append] at read ⊢
    rw [readWhole]
    · exact read
    · exact fun _ same => other (List.head_eq_of_cons_eq same)

theorem readExponent_absent {rest : List Char} (h : EndsValue rest) :
    readExponent rest = some ([], rest) := by
  obtain ⟨c, more, rfl, ends⟩ := h
  rcases endsValue_cases ends with rfl | rfl | rfl
  all_goals rfl

/-- The digits of an integer are read back after its sign. -/
theorem readDecimal_decimal (sign : List Char) (n : Nat) {rest : List Char} (h : EndsValue rest) :
    readDecimal sign (Text.decimal n ++ rest) =
      (checked (if sign = ['-'] then -(n : Int) else n)).map fun value => (value, rest) := by
  have read := readWhole_decimal n h
  have none_left := readExponent_absent h
  obtain ⟨c, more, rfl, ends⟩ := h
  have point : c ≠ '.' := by
    rintro rfl
    cases ends
  unfold readDecimal
  rw [read]
  simp only [bind, Option.bind]
  split
  · next same => exact absurd (List.head_eq_of_cons_eq same) point
  · rw [none_left]
    simp only [List.isEmpty_nil, if_true, Text.decimalValue_decimal]
    cases checked (if sign = ['-'] then -(n : Int) else n) with
    | none => rfl
    | some value => rfl

/-- Digits stand for no other number. -/
theorem readSigned_decimal (sign : List Char) (n : Nat) (rest : List Char) :
    readSigned sign (Text.decimal n ++ rest) = readDecimal sign (Text.decimal n ++ rest) := by
  cases front : Text.decimal n with
  | nil => exact absurd front (Text.decimal_ne_nil n)
  | cons d digits =>
    have digit : d.isDigit = true := Text.isDigit_of_mem_decimal (n := n) (by simp [front])
    rw [List.cons_append, readSigned.eq_def]
    split
    · next same =>
      rw [List.head_eq_of_cons_eq same] at digit
      cases digit
    · next same =>
      rw [List.head_eq_of_cons_eq same] at digit
      cases digit
    · rfl

/-- The number 0 is not taken for the mark of another base. -/
theorem endsValue_of_zero {n : Nat} {rest more : List Char} (h : EndsValue rest) {c : Char}
    (same : Text.decimal n ++ rest = '0' :: c :: more) : endsValue c = true := by
  by_cases zero : n = 0
  · subst zero
    have behind : rest = c :: more := List.tail_eq_of_cons_eq same
    exact h.head c (by rw [behind]; rfl)
  · obtain ⟨d, digits, front, other⟩ := Text.head_decimal_ne_zero zero
    rw [front, List.cons_append] at same
    exact absurd (List.head_eq_of_cons_eq same) other

theorem readNumber_decimal (n : Nat) {rest : List Char} (h : EndsValue rest) :
    readNumber (Text.decimal n ++ rest) = readSigned [] (Text.decimal n ++ rest) := by
  have all : ∀ c ∈ Text.decimal n, c.isDigit = true := fun c hc => Text.isDigit_of_mem_decimal hc
  have first : ∀ c more, Text.decimal n ++ rest = c :: more → c.isDigit = true := by
    intro c more same
    cases front : Text.decimal n with
    | nil => exact absurd front (Text.decimal_ne_nil n)
    | cons d digits =>
      rw [front, List.cons_append] at same
      rw [← List.head_eq_of_cons_eq same]
      exact all d (by simp [front])
  unfold readNumber
  rw [startsDate_digits all h, startsTime_digits all h]
  simp only [Bool.or_false, Bool.false_eq_true, if_false]
  split
  · next same => cases endsValue_of_zero h same
  · next same => cases endsValue_of_zero h same
  · next same => cases endsValue_of_zero h same
  · next same => cases first _ _ same
  · next same => cases first _ _ same
  · rfl

theorem readNumber_dash (input : List Char) :
    readNumber ('-' :: input) = readSigned ['-'] input := by
  have date : startsDate ('-' :: input) = false := by
    simp [startsDate]
  have time : startsTime ('-' :: input) = false := by
    unfold startsTime
    split
    · next pair =>
      obtain ⟨a, b, same, digit, -⟩ := readPair_eq pair
      rw [← List.head_eq_of_cons_eq same] at digit
      cases digit
    · rfl
  unfold readNumber
  rw [date, time]
  rfl

theorem readNumber_integer {n : Int} (fits : inRange n = true) {rest : List Char}
    (h : EndsValue rest) :
    readNumber (Text.signedDecimal n ++ rest) = some (integer n, rest) := by
  by_cases negative : n < 0
  · have back : -(n.natAbs : Int) = n := by omega
    rw [Text.signedDecimal, if_pos negative, List.cons_append, readNumber_dash, readSigned_decimal,
      readDecimal_decimal _ _ h, if_pos rfl, back, checked, if_pos fits]
    rfl
  · have back : (n.natAbs : Int) = n := by omega
    rw [Text.signedDecimal, if_neg negative, readNumber_decimal _ h, readSigned_decimal,
      readDecimal_decimal _ _ h, if_neg (by simp), back, checked, if_pos fits]
    rfl

/-! ## Values other than arrays and tables -/

/-- What a value starts with that is no array and no table. -/
def opensLeaf (c : Char) : Bool :=
  c == '"' || c == '\'' || c == 't' || c == 'f' || c == '-' || c.isDigit

theorem opensLeaf_of_writeText (s : List Char) :
    ∃ c more, writeText s = c :: more ∧ (c = '"' ∨ c = '\'') := by
  unfold writeText
  cases TextStyle.of s with
  | basic => exact ⟨_, _, rfl, .inl rfl⟩
  | literal => exact ⟨_, _, rfl, .inr rfl⟩
  | basicLines => exact ⟨_, _, rfl, .inl rfl⟩
  | literalLines => exact ⟨_, _, rfl, .inr rfl⟩

theorem opensLeaf_signedDecimal (n : Int) :
    ∃ c more, Text.signedDecimal n = c :: more ∧ (c = '-' ∨ c.isDigit = true) := by
  unfold Text.signedDecimal
  split
  · exact ⟨_, _, rfl, .inl rfl⟩
  · cases front : Text.decimal n.natAbs with
    | nil => exact absurd front (Text.decimal_ne_nil _)
    | cons d digits =>
      exact ⟨d, digits, rfl, .inr (Text.isDigit_of_mem_decimal (n := n.natAbs) (by simp [front]))⟩

theorem opensLeaf_of_writeLeaf {value : Toml} {written : List Char}
    (h : writeLeaf? value = some written) : ∃ c more, written = c :: more ∧ opensLeaf c = true := by
  unfold writeLeaf? at h
  split at h
  · next s =>
    obtain ⟨c, more, front, mark⟩ := opensLeaf_of_writeText s.toList
    cases h
    refine ⟨c, more, front, ?_⟩
    rcases mark with rfl | rfl
    all_goals rfl
  · next n =>
    split at h
    · obtain ⟨c, more, front, first⟩ := opensLeaf_signedDecimal n
      cases h
      refine ⟨c, more, front, ?_⟩
      rcases first with rfl | digit
      · rfl
      · simp [opensLeaf, digit]
    · cases h
  · next b =>
    cases h
    cases b
    · exact ⟨_, _, rfl, rfl⟩
    · exact ⟨_, _, rfl, rfl⟩
  · cases h

theorem readLeaf_written {value : Toml} {written : List Char} (h : writeLeaf? value = some written)
    {rest : List Char} (ends : EndsValue rest) : readLeaf (written ++ rest) = some (value, rest) := by
  unfold writeLeaf? at h
  split at h
  · next s =>
    cases h
    have no_mark : ∀ c ∈ rest.head?, c ≠ '"' ∧ c ≠ '\'' := by
      intro c hc
      rcases endsValue_cases (ends.head c hc) with rfl | rfl | rfl
      all_goals decide
    have read := readText_writeText s.toList no_mark
    obtain ⟨c, more, front, mark⟩ := opensLeaf_of_writeText s.toList
    rw [String.ofList_toList] at read
    rw [front, List.cons_append] at read ⊢
    rcases mark with rfl | rfl
    · simp [readLeaf, read]
    · simp [readLeaf, read]
  · next n =>
    split at h
    · next fits =>
      cases h
      have read := readNumber_integer fits ends
      obtain ⟨c, more, front, first⟩ := opensLeaf_signedDecimal n
      rw [front, List.cons_append] at read ⊢
      have other (d : Char) (no_dash : d ≠ '-') (no_digit : d.isDigit = false) : c ≠ d := by
        rintro rfl
        rcases first with dash | digit
        · exact no_dash dash
        · rw [no_digit] at digit
          cases digit
      rw [readLeaf]
      · exact read
      · exact fun _ same => other '"' (by decide) rfl (List.head_eq_of_cons_eq same)
      · exact fun _ same => other '\'' (by decide) rfl (List.head_eq_of_cons_eq same)
      · exact fun _ same => other 't' (by decide) rfl (List.head_eq_of_cons_eq same)
      · exact fun _ same => other 'f' (by decide) rfl (List.head_eq_of_cons_eq same)
    · cases h
  · next b =>
    cases h
    cases b
    all_goals rfl
  · cases h

/-! ## Arrays -/

/-- All forms of a list exist when that of the first one exists and those of the others do. -/
theorem mapM_cons_eq_some_iff {α β : Type} {f : α → Option β} {x : α} {xs : List α} {ys : List β} :
    (x :: xs).mapM f = some ys ↔
      ∃ y more, f x = some y ∧ xs.mapM f = some more ∧ ys = y :: more := by
  simp only [List.mapM_cons, Option.bind_eq_bind, Option.bind_eq_some_iff, Option.pure_def,
    Option.some.injEq]
  constructor
  · rintro ⟨y, first, more, later, rfl⟩
    exact ⟨y, more, first, later, rfl⟩
  · rintro ⟨y, more, first, later, rfl⟩
    exact ⟨y, first, more, later, rfl⟩

/-- Neither a blank nor a line end nor a comment, nor a bracket or a brace, stands in front. -/
theorem opensLeaf_ne {c : Char} (h : opensLeaf c = true) {d : Char} (other : opensLeaf d = false) :
    c ≠ d := by
  rintro rfl
  rw [other] at h
  cases h

theorem isGap_of_opensLeaf {c : Char} (h : opensLeaf c = true) : isGap c = false := by
  have space := opensLeaf_ne h (d := ' ') rfl
  have tab := opensLeaf_ne h (d := '\t') rfl
  simp [isGap, space, tab]

/-- Nothing is skipped in front of something that is no blank and starts no comment. -/
theorem skipLines_of_head {c : Char} (gap : isGap c = false) (feed : c ≠ '\n') (carriage : c ≠ '\r')
    (comment : c ≠ '#') (rounds : Nat) (rest : List Char) :
    skipLines rounds (c :: rest) = some (c :: rest) := by
  cases rounds with
  | zero => rfl
  | succ rounds =>
    rw [skipLines.eq_def]
    dsimp only
    rw [skipGaps_of_head gap]
    split
    · next same => exact absurd (List.head_eq_of_cons_eq same) feed
    · next same => exact absurd (List.head_eq_of_cons_eq same) carriage
    · next same => exact absurd (List.head_eq_of_cons_eq same) comment
    · rfl

theorem skipLines_feed (rounds : Nat) (rest : List Char) :
    skipLines (rounds + 1) ('\n' :: rest) = skipLines rounds rest := rfl

theorem skipLines_leaf {value : Toml} {written : List Char} (h : writeLeaf? value = some written)
    (rounds : Nat) (rest : List Char) :
    skipLines rounds (written ++ rest) = some (written ++ rest) := by
  obtain ⟨c, more, rfl, opens⟩ := opensLeaf_of_writeLeaf h
  exact skipLines_of_head (isGap_of_opensLeaf opens) (opensLeaf_ne opens rfl)
    (opensLeaf_ne opens rfl) (opensLeaf_ne opens rfl) rounds (more ++ rest)

/-- An item on a line of its own, after four blanks. -/
theorem skipLines_item {value : Toml} {written : List Char} (h : writeLeaf? value = some written)
    {rounds : Nat} (enough : 2 ≤ rounds) (rest : List Char) :
    skipLines rounds ("\n    ".toList ++ (written ++ rest)) = some (written ++ rest) := by
  obtain ⟨rounds, rfl⟩ := Nat.exists_eq_add_of_le' enough
  have blanks : skipLines (rounds + 1) (' ' :: ' ' :: ' ' :: ' ' :: (written ++ rest)) =
      skipLines (rounds + 1) (written ++ rest) := rfl
  have feed : skipLines (rounds + 2) ("\n    ".toList ++ (written ++ rest)) =
      skipLines (rounds + 1) (' ' :: ' ' :: ' ' :: ' ' :: (written ++ rest)) := rfl
  rw [feed, blanks, skipLines_leaf h]

/-- What is neither an array nor a table is read as such at any depth. -/
theorem readValue_of_head {c : Char} (array : c ≠ '[') (table : c ≠ '\x7b') (depth : Nat)
    (rest : List Char) : readValue depth (c :: rest) = readLeaf (c :: rest) := by
  cases depth with
  | zero =>
    rw [readValue]
    · exact fun _ same => array (List.head_eq_of_cons_eq same)
    · exact fun _ same => table (List.head_eq_of_cons_eq same)
  | succ depth =>
    rw [readValue]
    · exact fun _ same => array (List.head_eq_of_cons_eq same)
    · exact fun _ same => table (List.head_eq_of_cons_eq same)

theorem readValue_leaf {value : Toml} {written : List Char} (h : writeLeaf? value = some written)
    {rest : List Char} (ends : EndsValue rest) (depth : Nat) :
    readValue depth (written ++ rest) = some (value, rest) := by
  have read := readLeaf_written h ends
  obtain ⟨c, more, rfl, opens⟩ := opensLeaf_of_writeLeaf h
  rw [List.cons_append] at read ⊢
  rw [readValue_of_head (opensLeaf_ne opens rfl) (opensLeaf_ne opens rfl), read]

section Items

variable {readItem : Scan Toml}

theorem endsValue_comma (rest : List Char) : EndsValue (',' :: rest) := ⟨',', rest, rfl, rfl⟩

theorem endsValue_bracket (rest : List Char) : EndsValue (']' :: rest) := ⟨']', rest, rfl, rfl⟩

/-- Nothing is skipped in front of a comma or a bracket. -/
theorem skipLines_comma (rounds : Nat) (rest : List Char) :
    skipLines rounds (',' :: rest) = some (',' :: rest) :=
  skipLines_of_head rfl (by decide) (by decide) (by decide) rounds rest

theorem skipLines_bracket (rounds : Nat) (rest : List Char) :
    skipLines rounds (']' :: rest) = some (']' :: rest) :=
  skipLines_of_head rfl (by decide) (by decide) (by decide) rounds rest

variable (read : ∀ {value written rest}, writeLeaf? value = some written → EndsValue rest →
  readItem (written ++ rest) = some (value, rest))

include read

/-- An item on a line of its own, with a comma and other items behind it. -/
theorem readItems_item {item : Toml} {written : List Char} (h : writeLeaf? item = some written)
    {rounds : Nat} {input rest : List Char} {items : List Toml}
    (others : readItems readItem rounds input = some (items, rest)) :
    readItems readItem (rounds + 1) ("\n    ".toList ++ (written ++ ',' :: input)) =
      some (item :: items, rest) := by
  have found := read h (endsValue_comma input)
  have enough : 2 ≤ ("\n    ".toList ++ (written ++ ',' :: input)).length + 1 := by simp
  have skips := skipLines_item h enough (',' :: input)
  obtain ⟨c, more, rfl, opens⟩ := opensLeaf_of_writeLeaf h
  rw [readItems, skips]
  simp only [bind, Option.bind]
  split
  · next same => exact absurd (List.head_eq_of_cons_eq same) (opensLeaf_ne opens rfl)
  · rw [found]
    simp only [skipLines_comma, others]
    rfl

/-- The items of an array that stand on lines of their own, as many as there are. -/
theorem readItems_lines (rest : List Char) {items : List Toml} {forms : List (List Char)}
    (h : items.mapM writeLeaf? = some forms) {rounds : Nat}
    (enough : (forms.flatMap (fun item => "\n    ".toList ++ item ++ [','])).length < rounds) :
    readItems readItem rounds
      (forms.flatMap (fun item => "\n    ".toList ++ item ++ [',']) ++ '\n' :: ']' :: rest) =
        some (items, rest) := by
  obtain ⟨rounds, rfl⟩ := Nat.exists_eq_add_one.mpr (Nat.zero_lt_of_lt enough)
  induction items generalizing forms rounds with
  | nil =>
    rw [List.mapM_nil, Option.pure_def, Option.some.injEq] at h
    subst h
    rw [List.flatMap_nil, List.nil_append, readItems, List.length_cons, skipLines_feed,
      skipLines_bracket]
    rfl
  | cons item items ih =>
    obtain ⟨written, more, first, later, rfl⟩ := mapM_cons_eq_some_iff.mp h
    rw [List.flatMap_cons, List.length_append] at enough
    rw [List.length_append, List.length_append, List.length_singleton] at enough
    obtain ⟨rounds, rfl⟩ := Nat.exists_eq_add_one.mpr (show 0 < rounds by omega)
    have others := ih later rounds (by omega)
    rw [List.flatMap_cons, List.append_assoc, List.append_assoc, List.append_assoc]
    exact readItems_item read first others

/-- The only item of an array stands between its brackets. -/
theorem readItems_single (rest : List Char) {item : Toml} {written : List Char}
    (h : writeLeaf? item = some written) (rounds : Nat) :
    readItems readItem (rounds + 1) (written ++ ']' :: rest) = some ([item], rest) := by
  have found := read h (endsValue_bracket rest)
  have skips := skipLines_leaf h ((written ++ ']' :: rest).length + 1) (']' :: rest)
  obtain ⟨c, more, rfl, opens⟩ := opensLeaf_of_writeLeaf h
  rw [readItems, skips]
  simp only [bind, Option.bind]
  split
  · next same => exact absurd (List.head_eq_of_cons_eq same) (opensLeaf_ne opens rfl)
  · rw [found]
    simp only [skipLines_bracket]
    rfl

/-- The items of an array are read back from their written form, after the opening bracket. -/
theorem readItems_written (rest : List Char) {items : List Toml} {forms : List (List Char)}
    (h : items.mapM writeLeaf? = some forms) :
    ∃ input, writeItems forms ++ rest = '[' :: input ∧
      ∀ rounds, input.length < rounds → readItems readItem rounds input = some (items, rest) := by
  rcases items with _ | ⟨item, _ | ⟨next, items⟩⟩
  · rw [List.mapM_nil, Option.pure_def, Option.some.injEq] at h
    subst h
    refine ⟨']' :: rest, rfl, ?_⟩
    intro rounds enough
    obtain ⟨rounds, rfl⟩ := Nat.exists_eq_add_one.mpr (Nat.zero_lt_of_lt enough)
    rw [readItems, skipLines_bracket]
    rfl
  · obtain ⟨written, more, first, none_left, rfl⟩ := mapM_cons_eq_some_iff.mp h
    rw [List.mapM_nil, Option.pure_def, Option.some.injEq] at none_left
    subst none_left
    refine ⟨written ++ ']' :: rest, by simp [writeItems], ?_⟩
    intro rounds enough
    obtain ⟨rounds, rfl⟩ := Nat.exists_eq_add_one.mpr (Nat.zero_lt_of_lt enough)
    exact readItems_single read rest first rounds
  · obtain ⟨written, more, -, later, rfl⟩ := mapM_cons_eq_some_iff.mp h
    obtain ⟨second, others, -, -, rfl⟩ := mapM_cons_eq_some_iff.mp later
    refine ⟨(written :: second :: others).flatMap (fun item => "\n    ".toList ++ item ++ [',']) ++
      '\n' :: ']' :: rest, ?_, ?_⟩
    · rw [writeItems, List.append_assoc]
      · rfl
      · exact fun same => List.cons_ne_nil _ _ same
      · intro only same
        exact List.cons_ne_nil _ _ (List.tail_eq_of_cons_eq same)
    · intro rounds enough
      refine readItems_lines read rest h ?_
      rw [List.length_append] at enough
      omega

end Items

/-- Every value that is written on the line of its key is read back. -/
theorem readValue_written {value : Toml} {written : List Char} (h : writeValue? value = some written)
    {rest : List Char} (ends : EndsValue rest) (depth : Nat) :
    readValue (depth + 1) (written ++ rest) = some (value, rest) := by
  unfold writeValue? at h
  split at h
  · next items =>
    rw [Option.map_eq_map, Option.map_eq_some_iff] at h
    obtain ⟨forms, written, rfl⟩ := h
    have leaf {value : Toml} {written rest : List Char} (h : writeLeaf? value = some written)
        (ends : EndsValue rest) : readValue depth (written ++ rest) = some (value, rest) :=
      readValue_leaf h ends depth
    obtain ⟨input, front, read⟩ := readItems_written leaf rest written
    rw [front, readValue, read _ (Nat.lt_succ_self _)]
    rfl
  · exact readValue_leaf h ends (depth + 1)

end TraceJournal.Toml
