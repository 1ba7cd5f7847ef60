import TraceJournal.Proofs.Text.Digits
import TraceJournal.Proofs.Time.Calendar
import TraceJournal.Time.Printer
import TraceJournal.Time.Reader

/-!
# Reading written instants

Every instant is read back from its text in stored traces: part by part, the reader takes exactly
the characters that the part was written with, and date and time of day lead back to the instant.
-/

namespace TraceJournal.Time

open TraceJournal.Text

/-! ## Numbers -/

/-- A run of digits that is as long as it may be, or that something else follows. -/
theorem readNumber_digits {width : Nat} {digits rest : List Char}
    (all : ∀ c ∈ digits, c.isDigit = true) (some : digits ≠ [])
    (ends : digits.length = width ∨
      digits.length ≤ width ∧ ∀ c ∈ rest.head?, c.isDigit = false) :
    readNumber width (digits ++ rest) = .ok (decimalValue digits, rest) := by
  have taken : ((digits ++ rest).take width).takeWhile Char.isDigit = digits := by
    rcases ends with full | ⟨short, stops⟩
    · have alone : (digits ++ []).takeWhile Char.isDigit = digits :=
        takeWhile_run all nofun
      rw [List.append_nil] at alone
      rw [List.take_left' full, alone]
    · rw [List.take_append, List.take_of_length_le short]
      apply takeWhile_run all
      intro c hc
      rw [List.head?_take] at hc
      split at hc
      · cases hc
      · exact stops c hc
  have filled : (digits ++ rest).isEmpty = false := by
    cases digits with
    | nil => exact absurd rfl some
    | cons c digits => rfl
  unfold readNumber
  simp only [taken, filled, List.isEmpty_iff, some, if_false, List.drop_left, Bool.false_eq_true]

/-- A number that is filled up to the width. -/
theorem readNumber_paddedDecimal {width n : Nat} (positive : 0 < width) (small : n < 10 ^ width)
    (rest : List Char) : readNumber width (paddedDecimal width n ++ rest) = .ok (n, rest) := by
  have full := length_paddedDecimal positive small
  rw [readNumber_digits (fun _ => isDigit_of_mem_paddedDecimal) (paddedDecimal_ne_nil width n)
    (.inl full), decimalValue_paddedDecimal]

/-- A number of two digits within its bounds. -/
theorem readBounded_paddedDecimal {low high n : Nat} (least : low ≤ n) (most : n ≤ high)
    (small : n < 100) (rest : List Char) :
    readBounded 2 low high (paddedDecimal 2 n ++ rest) = .ok (n, rest) := by
  unfold readBounded
  rw [readNumber_paddedDecimal (by decide) small]
  exact if_pos ⟨least, most⟩

/-- A number in front of a mark, where more digits might stand. -/
theorem readNumber_mark {width limit n : Nat} {mark : Char}
    (short : (paddedDecimal width n).length ≤ limit) (stops : mark.isDigit = false)
    (rest : List Char) :
    readNumber limit (paddedDecimal width n ++ mark :: rest) = .ok (n, mark :: rest) := by
  rw [readNumber_digits (fun _ => isDigit_of_mem_paddedDecimal) (paddedDecimal_ne_nil width n),
    decimalValue_paddedDecimal]
  right
  refine ⟨short, ?_⟩
  intro c hc
  cases hc
  exact stops

/-- A year without a sign: exactly four digits. -/
theorem readYear_unsigned {n : Nat} (small : n < 10 ^ 4) (rest : List Char) :
    readYear (paddedDecimal 4 n ++ rest) = .ok ((n : Int), rest) := by
  have read := readNumber_paddedDecimal (by decide) small rest
  have digits (c : Char) (h : c ∈ paddedDecimal 4 n) : c.isDigit = true :=
    isDigit_of_mem_paddedDecimal h
  unfold readYear
  cases text : paddedDecimal 4 n with
  | nil => exact absurd text (paddedDecimal_ne_nil 4 n)
  | cons c more =>
    rw [text] at read digits
    have first := digits c List.mem_cons_self
    rw [List.cons_append] at read ⊢
    split
    · next h =>
      cases h
      cases first
    · next h =>
      cases h
      cases first
    · rw [read]
      rfl

/-- A year, however it is written. -/
theorem readYear_yearText {year : Int} (least : -2147483648 ≤ year) (most : year ≤ 2147483647)
    (rest : List Char) : readYear (yearText year ++ '-' :: rest) = .ok (year, '-' :: rest) := by
  have read : readNumber (paddedDecimal 4 year.natAbs ++ '-' :: rest).length
      (paddedDecimal 4 year.natAbs ++ '-' :: rest) = .ok (year.natAbs, '-' :: rest) := by
    apply readNumber_mark _ rfl
    rw [List.length_append]
    exact Nat.le_add_right _ _
  unfold yearText
  split
  · rw [readYear_unsigned (by omega), Int.toNat_of_nonneg (by omega)]
  · split
    · next negative =>
      have value : -1 * (year.natAbs : Int) = year := by omega
      simp only [List.cons_append, readYear, read, bind, Except.bind, value]
      rw [if_pos ⟨least, most⟩]
    · next positive =>
      have value : 1 * (year.natAbs : Int) = year := by omega
      simp only [List.cons_append, readYear, read, bind, Except.bind, value]
      rw [if_pos ⟨least, most⟩]

/-! ## Date and time of day -/

/-- The parts of date and time of day have the values that they may have. -/
structure Civil.Proper (c : Civil) : Prop where
  valid : c.date.isValid = true
  year_ge : -262143 ≤ c.date.year
  year_le : c.date.year ≤ 262142
  hour_lt : c.hour < 24
  minute_lt : c.minute < 60
  second_le : c.second ≤ 60
  nanos_lt : c.nanos < 1000000000

theorem Civil.proper_ofInstant (t : Instant) : (Civil.ofInstant t).Proper := by
  have early := t.earliest_le
  have late := t.le_latest
  have first : -96465292 ≤ t.seconds / 86400 := by omega
  have last : t.seconds / 86400 ≤ 95026236 := by omega
  have years := Date.year_ofDays first last
  have valid := Date.isValid_ofDays (t.seconds / 86400)
  refine ⟨valid, years.1, years.2, ?_, ?_, ?_, ?_⟩
  · simp only [ofInstant]
    omega
  · simp only [ofInstant]
    omega
  · simp only [ofInstant]
    split <;> omega
  · simp only [ofInstant]
    omega

/-- Some places of a fraction. -/
theorem readNanos_paddedDecimal {places n : Nat} (positive : 0 < places) (most : places ≤ 9)
    (small : n < 10 ^ places) (rest : List Char) :
    readNanos (paddedDecimal places n ++ 'Z' :: rest) =
      .ok (n * Nat.pow 10 (9 - places), 'Z' :: rest) := by
  have full := length_paddedDecimal positive small
  have read : readNumber 9 (paddedDecimal places n ++ 'Z' :: rest) = .ok (n, 'Z' :: rest) :=
    readNumber_mark (by rw [full]; exact most) rfl rest
  unfold readNanos
  simp only [read, bind, Except.bind, List.length_append, full, Nat.add_sub_cancel]
  rfl

/-- The fraction of a second. -/
theorem readFraction_fractionText {c : Civil} (h : c.nanos < 1000000000) (rest : List Char) :
    readFraction (c.fractionText ++ 'Z' :: rest) = .ok (c.nanos, 'Z' :: rest) := by
  unfold Civil.fractionText
  split
  · next none =>
    rw [none]
    rfl
  · split
    · have value : c.nanos / 1000000 * Nat.pow 10 (9 - 3) = c.nanos := by
        show c.nanos / 1000000 * 1000000 = c.nanos
        omega
      rw [List.cons_append, readFraction, readNanos_paddedDecimal (by decide) (by decide), value]
      omega
    · split
      · have value : c.nanos / 1000 * Nat.pow 10 (9 - 6) = c.nanos := by
          show c.nanos / 1000 * 1000 = c.nanos
          omega
        rw [List.cons_append, readFraction, readNanos_paddedDecimal (by decide) (by decide), value]
        omega
      · have value : c.nanos * Nat.pow 10 (9 - 9) = c.nanos := Nat.mul_one _
        rw [List.cons_append, readFraction, readNanos_paddedDecimal (by decide) (by decide), value]
        exact h

/-- The parts of an instant make it up. -/
theorem ofParts?_parts (t : Instant) : Instant.ofParts? t.seconds t.nanos = some t := by
  unfold Instant.ofParts?
  rw [dif_pos ⟨t.nanos_lt, t.leap_second, t.earliest_le, t.le_latest⟩]

/-- The time of day is a leap second exactly when the nanoseconds are those of one. -/
theorem second_ofInstant_eq_iff (t : Instant) :
    (Civil.ofInstant t).second = 60 ↔ 1000000000 ≤ t.nanos := by
  have leap := t.leap_second
  simp only [Civil.ofInstant]
  split <;> omega

/-- Date and time of day lead back to their instant. -/
theorem toInstant?_ofInstant (t : Instant) : (Civil.ofInstant t).toInstant? 0 = some t := by
  have nanos_lt := t.nanos_lt
  have leap := t.leap_second
  have days : (Civil.ofInstant t).date.toDays = t.seconds / 86400 := Date.toDays_ofDays _
  have leap_iff := second_ofInstant_eq_iff t
  unfold Civil.toInstant?
  by_cases late : 1000000000 ≤ t.nanos
  · have sixty := leap_iff.mpr late
    simp only [days, sixty, beq_self_eq_true, if_true]
    rw [← ofParts?_parts t]
    congr 1
    · simp only [Civil.ofInstant]
      omega
    · simp only [Civil.ofInstant]
      omega
  · have other : ((Civil.ofInstant t).second == 60) = false :=
      beq_eq_false_iff_ne.mpr fun sixty => late (leap_iff.mp sixty)
    simp only [days, other, Bool.false_eq_true, if_false]
    rw [← ofParts?_parts t]
    congr 1
    · simp only [Civil.ofInstant]
      split <;> omega
    · simp only [Civil.ofInstant]
      omega

/-- Date and time of day of an instant are those of one. -/
theorem settle_ofInstant (t : Instant) : settle (Civil.ofInstant t) 0 = .ok t := by
  have proper := Civil.proper_ofInstant t
  have least := proper.year_ge
  have most := proper.year_le
  have inside : ¬(¬(Civil.ofInstant t).date.isValid = true ∨
      (Civil.ofInstant t).date.year < -262143 ∨ 262142 < (Civil.ofInstant t).date.year) := by
    rintro (invalid | early | late)
    · exact invalid proper.valid
    · omega
    · omega
  unfold settle
  rw [if_neg inside, if_neg (by omega), toInstant?_ofInstant]

end TraceJournal.Time

namespace TraceJournal.Instant

open TraceJournal.Text
open TraceJournal.Time

private theorem dropBlanks_paddedDecimal (width n : Nat) (rest : List Char) :
    dropBlanks (paddedDecimal width n ++ rest) = paddedDecimal width n ++ rest :=
  dropBlanks_digits (fun _ => isDigit_of_mem_paddedDecimal) (paddedDecimal_ne_nil width n)

private theorem dropBlanks_cons {c : Char} (h : isBlank c = false) (rest : List Char) :
    dropBlanks (c :: rest) = c :: rest :=
  List.dropWhile_cons_of_neg (by rw [h]; decide)

private theorem dropBlanks_yearText (year : Int) (rest : List Char) :
    dropBlanks (yearText year ++ rest) = yearText year ++ rest := by
  unfold yearText
  split
  · exact dropBlanks_paddedDecimal _ _ _
  · split
    · exact dropBlanks_cons rfl _
    · exact dropBlanks_cons rfl _

/-- The month and the day of a date that exists. -/
private theorem bounds_of_isValid {d : Date} (h : d.isValid = true) :
    (1 ≤ d.month ∧ d.month ≤ 12) ∧ 1 ≤ d.day ∧ d.day ≤ 31 := by
  unfold Date.isValid at h
  simp only [Bool.and_eq_true, decide_eq_true_eq] at h
  obtain ⟨⟨⟨first, last⟩, day⟩, most⟩ := h
  refine ⟨⟨first, last⟩, day, Nat.le_trans most ?_⟩
  unfold Date.daysInMonth
  repeat' split
  all_goals decide

/-- The reader takes the parts of the text one after the other. -/
theorem readChars_zuluChars (t : Instant) : readChars t.zuluChars = .ok t := by
  have proper := Civil.proper_ofInstant t
  have settled := settle_ofInstant t
  unfold zuluChars
  generalize Civil.ofInstant t = c at proper settled
  have hour_lt := proper.hour_lt
  have minute_lt := proper.minute_lt
  have second_le := proper.second_le
  have least := proper.year_ge
  have most := proper.year_le
  obtain ⟨⟨january, december⟩, first, last⟩ := bounds_of_isValid proper.valid
  have low : -2147483648 ≤ c.date.year := by omega
  have high : c.date.year ≤ 2147483647 := by omega
  have year := readYear_yearText low high
  have month := readBounded_paddedDecimal january december (by omega)
  have day := readBounded_paddedDecimal first last (by omega)
  have hour := readBounded_paddedDecimal (Nat.zero_le _) (Nat.le_of_lt_succ proper.hour_lt)
    (by omega)
  have minute := readBounded_paddedDecimal (Nat.zero_le _) (Nat.le_of_lt_succ proper.minute_lt)
    (by omega)
  have second := readBounded_paddedDecimal (Nat.zero_le _) proper.second_le (by omega)
  have nanos := readFraction_fractionText proper.nanos_lt []
  have offset : readLooseOffset ['Z'] = .ok (0, []) := rfl
  have dash := dropBlanks_cons (c := '-') rfl
  have colon := dropBlanks_cons (c := ':') rfl
  have zulu := dropBlanks_cons (c := 'Z') rfl []
  have done : (dropBlanks []).isEmpty = true := rfl
  unfold readChars Civil.dateTimeText Civil.clockText Date.text
  simp only [List.append_assoc, List.cons_append, dropBlanks_yearText, dropBlanks_paddedDecimal,
    bind, Except.bind, year, month, day, hour, minute, second, nanos, offset, dash, colon, zulu,
    done, readMark, readMiddle, if_true, true_or]
  exact settled

/-- Every instant is read back from its text in stored traces. -/
theorem read_zuluText (t : Instant) : read t.zuluText = .ok t := by
  rw [read, zuluText, String.toList_ofList, readChars_zuluChars]

end TraceJournal.Instant
