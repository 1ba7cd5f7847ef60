import TraceJournal.Json.Reader
import TraceJournal.Proofs.Json.Number
import TraceJournal.Proofs.Json.Quoted

/-!
# Reading written leaves

Values that are no containers are read from their text whatever is made of containers. What a number
becomes is told by its text alone.
-/

namespace TraceJournal.Json

open TraceJournal.Text

variable {container : UInt8 → Reader Json} {rest : List UInt8}

theorem skipGaps_cons {b : UInt8} (h : isGap b = false) (rest : List UInt8) :
    skipGaps (b :: rest) = b :: rest :=
  List.dropWhile_cons_of_neg (by rw [h]; decide)

theorem isGap_of_isDigit {b : UInt8} (h : isDigit b = true) : isGap b = false := by
  cases gap : isGap b with
  | false => rfl
  | true =>
    unfold isGap at gap
    simp only [Bool.or_eq_true, beq_iff_eq] at gap
    rcases gap with ((rfl | rfl) | rfl) | rfl <;> cases h

/-! ## Numbers -/

theorem readLeafOr_digit {b : UInt8} (digit : isDigit b = true) (more : List UInt8) :
    readLeafOr container (b :: more) =
      (readUnsigned false (b :: more)).map fun (n, rest) => (number n, rest) := by
  have other (c : Char) (h : isDigit (code c) = false) : b ≠ code c := by
    rintro rfl
    rw [digit] at h
    cases h
  unfold readLeafOr
  rw [skipGaps_cons (isGap_of_isDigit digit)]
  simp only [other 'n' rfl, other 't' rfl, other 'f' rfl, other '"' rfl, other '-' rfl, digit,
    if_false, if_true]
  cases readUnsigned false (b :: more) <;> rfl

theorem readLeafOr_minus (more : List UInt8) :
    readLeafOr container (code '-' :: more) =
      (readUnsigned true more).map fun (n, rest) => (number n, rest) := by
  have read : readLeafOr container (code '-' :: more) =
      (do let (n, rest) ← readUnsigned true more; .ok (number n, rest)) := rfl
  rw [read]
  cases readUnsigned true more <;> rfl

theorem wholeNumber_natAbs {value : Int} (least : -0x8000000000000000 ≤ value)
    (most : value < 0x10000000000000000) :
    wholeNumber (decide (value < 0)) value.natAbs = .ok (.integer value least most) := by
  unfold wholeNumber
  by_cases negative : value < 0
  · simp only [decide_eq_true negative, if_true]
    rw [dif_pos (by omega)]
    congr
    omega
  · simp only [decide_eq_false negative, Bool.false_eq_true, if_false]
    rw [dif_pos (by omega)]
    congr
    omega

/-- A number without a sign starts with a digit. -/
theorem digit_front_of_all {chars : List Char} (all : ∀ c ∈ chars, c.isDigit = true)
    (some : chars ≠ []) (tail : List Char) :
    ∃ b more, bytesOf (chars ++ tail) = b :: more ∧ isDigit b = true := by
  cases chars with
  | nil => exact absurd rfl some
  | cons c chars =>
    have digit := all c List.mem_cons_self
    rw [List.cons_append, bytesOf_digit_cons digit]
    exact ⟨_, _, rfl, isDigit_code digit⟩

theorem digit_front_of_written {unsigned : List Char} (h : Number.Written unsigned) :
    ∃ b more, bytesOf unsigned = b :: more ∧ isDigit b = true := by
  cases h with
  | places front all _ _ =>
    apply digit_front_of_all all
    rintro rfl
    rcases front with zero | ⟨_, _, digits, _⟩
    · cases zero
    · cases digits
  | exponent down e _ digit _ =>
    rw [List.cons_append, bytesOf_digit_cons digit]
    exact ⟨_, _, rfl, isDigit_code digit⟩

/-- An integer is read back. -/
theorem readLeafOr_integer {value : Int} (least : -0x8000000000000000 ≤ value)
    (most : value < 0x10000000000000000) (ends : EndsNumber rest) :
    readLeafOr container (bytesOf (signedDecimal value) ++ rest) =
      .ok (number (.integer value least most), rest) := by
  have small : value.natAbs < 0x10000000000000000 := by omega
  have whole := wholeNumber_natAbs least most
  unfold signedDecimal
  split
  · next negative =>
    rw [decide_eq_true negative] at whole
    rw [bytesOf_ascii_cons (by decide), List.cons_append, readLeafOr_minus,
      readUnsigned_decimal true small ends, whole]
    rfl
  · next positive =>
    have read := readUnsigned_decimal false small ends
    obtain ⟨b, more, bytes, digit⟩ := digit_front_of_all (fun _ => isDigit_of_mem_decimal)
      (decimal_ne_nil value.natAbs) []
    rw [decide_eq_false positive] at whole
    rw [List.append_nil] at bytes
    rw [bytes, List.cons_append] at read ⊢
    rw [readLeafOr_digit digit, read, whole]
    rfl

/-- What is made of a number is told by its text. -/
theorem readLeafOr_number (n : Number) :
    ∃ result : Except Fault Number, ∀ (container : UInt8 → Reader Json) (rest : List UInt8),
      EndsNumber rest → readLeafOr container (bytesOf n.chars ++ rest) =
        result.map fun n => (number n, rest) := by
  cases n with
  | integer value least most =>
    exact ⟨.ok (.integer value least most), fun _ _ ends => readLeafOr_integer least most ends⟩
  | decimal x =>
    obtain ⟨unsigned, text, written⟩ := Number.written_text x
    obtain ⟨result, takes⟩ := takes_written x.isNegative written
    refine ⟨result, fun container rest ends => ?_⟩
    have read := takes rest ends
    rw [Number.chars, text, bytesOf_append, List.append_assoc]
    cases negative : x.isNegative with
    | true =>
      rw [negative] at read
      rw [if_pos rfl, bytesOf_ascii_cons (by decide), bytesOf_nil, List.cons_append,
        List.nil_append, readLeafOr_minus, read]
      cases result <;> rfl
    | false =>
      obtain ⟨b, more, bytes, digit⟩ := digit_front_of_written written
      rw [negative] at read
      rw [bytes, List.cons_append] at read
      rw [if_neg (by decide), bytesOf_nil, List.nil_append, bytes, List.cons_append,
        readLeafOr_digit digit, read]
      cases result <;> rfl

end TraceJournal.Json
