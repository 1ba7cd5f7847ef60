import TraceJournal.Json.Printer
import TraceJournal.Json.Token
import TraceJournal.Proofs.Number.Shortest
import TraceJournal.Proofs.Text.Encoding

/-!
# Reading written numbers

A number is read from exactly the bytes that it was written with, whatever follows that is no part
of a number. An integer is read back. Of any other number it only depends on its own text what it
is read as.
-/

namespace TraceJournal.Json

open TraceJournal.Text

/-- What follows is no part of a number. -/
def EndsNumber (rest : List UInt8) : Prop :=
  ∀ b ∈ rest.head?, isDigit b = false ∧ b ≠ code '.' ∧ b ≠ code 'e' ∧ b ≠ code 'E'

/-- What follows is no digit. -/
def EndsDigits (rest : List UInt8) : Prop := ∀ b ∈ rest.head?, isDigit b = false

/-- Some digits, at least one. -/
structure Digits (bytes : List UInt8) : Prop where
  all : ∀ b ∈ bytes, isDigit b = true
  ne_nil : bytes ≠ []

/-- Whatever stands behind some digits. -/
theorem Digits.isEmpty_append {digits : List UInt8} (h : Digits digits) (rest : List UInt8) :
    (digits ++ rest).isEmpty = false := by
  rw [List.isEmpty_eq_false_iff]
  exact List.append_ne_nil_of_left_ne_nil h.ne_nil rest

theorem EndsNumber.endsDigits {rest : List UInt8} (h : EndsNumber rest) : EndsDigits rest :=
  fun b hb => (h b hb).1

theorem EndsNumber.cons {b : UInt8}
    (h : isDigit b = false ∧ b ≠ code '.' ∧ b ≠ code 'e' ∧ b ≠ code 'E') (rest : List UInt8) :
    EndsNumber (b :: rest) := by
  intro c hc
  cases hc
  exact h

theorem EndsDigits.cons {b : UInt8} (h : isDigit b = false) (rest : List UInt8) :
    EndsDigits (b :: rest) := by
  intro c hc
  cases hc
  exact h

/-! ## Runs of digits -/

section Runs

variable {digits rest : List UInt8}

/-- What is taken of a run of digits does not depend on what follows. -/
theorem takeDigits_append (all : ∀ b ∈ digits, isDigit b = true) (ends : EndsDigits rest)
    (significand : Nat) :
    takeDigits significand (digits ++ rest) =
      ((takeDigits significand digits).1, (takeDigits significand digits).2.1,
        (takeDigits significand digits).2.2 ++ rest) := by
  induction digits generalizing significand with
  | nil =>
    cases rest with
    | nil => rfl
    | cons b rest =>
      have other : isDigit b = false := ends b rfl
      simp only [List.nil_append, takeDigits, other, Bool.false_and, Bool.false_eq_true, if_false]
  | cons b digits ih =>
    have more := ih (List.forall_mem_cons.mp all).2
    rw [List.cons_append, takeDigits, takeDigits]
    split
    · rw [more]
    · rfl

/-- What is left of a run of digits is the end of it. -/
theorem takeDigits_suffix (significand : Nat) (digits : List UInt8) :
    (takeDigits significand digits).2.2 <:+ digits := by
  induction digits generalizing significand with
  | nil => exact List.suffix_rfl
  | cons b digits ih =>
    rw [takeDigits]
    split
    · exact (ih _).trans (List.suffix_cons b digits)
    · exact List.suffix_rfl

theorem le_foldl_digitValue (significand : Nat) (digits : List UInt8) :
    significand ≤ digits.foldl (fun n b => n * 10 + digitValue b) significand := by
  induction digits generalizing significand with
  | nil => exact Nat.le_refl _
  | cons b digits ih =>
    have more := ih (significand * 10 + digitValue b)
    rw [List.foldl_cons]
    omega

/-- A run of digits is taken as a whole if its value is small enough. -/
theorem takeDigits_of_lt (all : ∀ b ∈ digits, isDigit b = true) {significand : Nat}
    (small : digits.foldl (fun n b => n * 10 + digitValue b) significand < 0x10000000000000000) :
    takeDigits significand digits =
      (digits.foldl (fun n b => n * 10 + digitValue b) significand, digits.length, []) := by
  induction digits generalizing significand with
  | nil => rfl
  | cons b digits ih =>
    rw [List.foldl_cons] at small
    have fits := Nat.lt_of_le_of_lt (le_foldl_digitValue _ digits) small
    have first := all b List.mem_cons_self
    rw [takeDigits, first, decide_eq_true fits, Bool.true_and, if_pos rfl,
      ih (List.forall_mem_cons.mp all).2 small]
    rfl

end Runs

/-! ## What a reader takes -/

/-- The reader takes exactly the bytes `written` off a text, and makes of them what it makes of
them alone. -/
def Takes {α : Type} (reader : Reader α) (written : List UInt8) : Prop :=
  ∃ result : Except Fault α, ∀ rest, EndsNumber rest →
    reader (written ++ rest) = result.map fun value => (value, rest)

theorem bind_ok_eq_map {α : Type} (result : Except Fault α) (rest : List UInt8) :
    (do .ok (← result, rest)) = result.map fun value => (value, rest) := by
  cases result <;> rfl

/-- The number of a significand and an exponent that is followed by one more, with its sign. -/
def exponentNumber (negative : Bool) (significand : Nat) (exponent : Int) (down : Bool) (e : Nat) :
    Except Fault Number :=
  if 2147483647 < e then
    if significand ≠ 0 ∧ ¬down then .error .malformed else decimalNumber negative 0 0
  else decimalNumber negative significand (if down then exponent - e else exponent + e)

theorem readExponent_signed (negative : Bool) (significand : Nat) (exponent : Int) (down : Bool)
    {digits rest : List UInt8} (h : Digits digits) (ends : EndsNumber rest) :
    readExponent negative significand exponent
        ((if down then code '-' else code '+') :: (digits ++ rest)) =
      (exponentNumber negative significand exponent down
        (digits.foldl (fun n b => n * 10 + digitValue b) 0)).map fun value => (value, rest) := by
  have filled := h.isEmpty_append rest
  obtain ⟨all, some⟩ := h
  have taken := Text.takeWhile_run all ends.endsDigits
  have left := Text.dropWhile_run all ends.endsDigits
  have other : code '+' ≠ code '-' := by decide
  unfold exponentNumber
  cases down
  all_goals
    simp only [readExponent, if_true, taken, left, filled, List.isEmpty_iff, some, if_false,
      Bool.false_eq_true, other]
    split
    · split
      · rfl
      · exact bind_ok_eq_map _ _
    · exact bind_ok_eq_map _ _

/-- The exponent of a number, with its sign. -/
theorem takes_readExponent (negative : Bool) (significand : Nat) (exponent : Int) (down : Bool)
    {digits : List UInt8} (h : Digits digits) :
    Takes (readExponent negative significand exponent)
      ((if down then code '-' else code '+') :: digits) :=
  ⟨_, fun _ ends => readExponent_signed negative significand exponent down h ends⟩

/-- Where the number ends after its whole digits, all of which were taken. -/
theorem readNumberTail_end (negative : Bool) (significand : Nat) {rest : List UInt8}
    (ends : EndsNumber rest) :
    readNumberTail negative significand 0 rest =
      (wholeNumber negative significand).map fun value => (value, rest) := by
  cases rest with
  | nil =>
    rw [readNumberTail, if_pos rfl]
    exact bind_ok_eq_map _ _
  | cons b rest =>
    obtain ⟨-, point, small, large⟩ := ends b rfl
    rw [readNumberTail, if_neg point, if_neg (not_or.mpr ⟨small, large⟩), if_pos rfl]
    exact bind_ok_eq_map _ _

/-- An exponent after the whole digits. -/
theorem takes_readNumberTail_exponent (negative : Bool) (significand dropped : Nat) (down : Bool)
    {digits : List UInt8} (h : Digits digits) :
    Takes (readNumberTail negative significand dropped)
      (code 'e' :: (if down then code '-' else code '+') :: digits) :=
  takes_readExponent negative significand dropped down h

/-- Places after the whole digits. -/
theorem takes_readNumberTail_places (negative : Bool) (significand dropped : Nat)
    {places : List UInt8} (h : Digits places) :
    Takes (readNumberTail negative significand dropped) (code '.' :: places) := by
  refine ⟨decimalNumber negative (takeDigits significand places).1
    (dropped - (takeDigits significand places).2.1), fun rest ends => ?_⟩
  have filled := h.isEmpty_append rest
  obtain ⟨all, some⟩ := h
  have taken := Text.takeWhile_run all ends.endsDigits
  have value := takeDigits_append all ends.endsDigits significand
  have left := Text.dropWhile_run
    (fun b hb => all b ((takeDigits_suffix significand places).subset hb)) ends.endsDigits
  simp only [readNumberTail, List.cons_append, if_true, value, taken, filled, List.isEmpty_iff,
    some, left, Bool.false_eq_true, if_false]
  cases rest with
  | nil => exact bind_ok_eq_map _ _
  | cons b rest =>
    obtain ⟨-, -, small, large⟩ := ends b rfl
    simp only [small, large, or_self, if_false]
    exact bind_ok_eq_map _ _

/-- Places and an exponent after the whole digits. -/
theorem takes_readNumberTail_places_exponent (negative : Bool) (significand dropped : Nat)
    (down : Bool) {places digits : List UInt8} (h : Digits places) (h' : Digits digits) :
    Takes (readNumberTail negative significand dropped)
      (code '.' :: (places ++ code 'e' :: (if down then code '-' else code '+') :: digits)) := by
  have filled := h.isEmpty_append
  obtain ⟨all, some⟩ := h
  obtain ⟨result, takes⟩ := takes_readExponent negative (takeDigits significand places).1
    (dropped - (takeDigits significand places).2.1) down h'
  refine ⟨result, fun rest ends => ?_⟩
  have mark : EndsDigits (code 'e' :: (if down then code '-' else code '+') :: digits ++ rest) :=
    .cons rfl _
  have taken := Text.takeWhile_run all mark
  have value := takeDigits_append all mark significand
  have left := Text.dropWhile_run
    (fun b hb => all b ((takeDigits_suffix significand places).subset hb)) mark
  have exponent := takes rest ends
  simp only [List.cons_append] at taken value left exponent
  simp only [readNumberTail, List.cons_append, List.append_assoc, if_true, value, taken, filled,
    List.isEmpty_iff, some, left, Bool.false_eq_true, if_false, true_or, exponent]

/-! ## Whole digits -/

/-- The digits in front of a number: a single zero, or others that no zero stands in front of. -/
inductive Whole : List UInt8 → Prop where
  | zero : Whole [code '0']
  | digits {b : UInt8} {more : List UInt8} : isDigit b = true → b ≠ code '0' →
    (∀ c ∈ more, isDigit c = true) → Whole (b :: more)

/-- Whole digits of a value that is small enough. -/
theorem readUnsigned_whole_of_lt (negative : Bool) {whole rest : List UInt8} (h : Whole whole)
    (ends : EndsDigits rest)
    (small : whole.foldl (fun n b => n * 10 + digitValue b) 0 < 0x10000000000000000) :
    readUnsigned negative (whole ++ rest) =
      readNumberTail negative (whole.foldl (fun n b => n * 10 + digitValue b) 0) 0 rest := by
  cases h with
  | zero =>
    cases rest with
    | nil => rfl
    | cons b rest =>
      have other : isDigit b = false := ends b rfl
      simp only [List.cons_append, List.nil_append, readUnsigned, if_true, other,
        Bool.false_eq_true, if_false]
      rfl
  | @digits b more digit other all =>
    have all' : ∀ c ∈ b :: more, isDigit c = true := List.forall_mem_cons.mpr ⟨digit, all⟩
    have value := takeDigits_append all' ends 0
    rw [takeDigits_of_lt all' small] at value
    have taken : (([] : List UInt8) ++ rest).takeWhile isDigit = [] := Text.takeWhile_run nofun ends
    have left : (([] : List UInt8) ++ rest).dropWhile isDigit = rest := Text.dropWhile_run nofun ends
    rw [List.cons_append] at value ⊢
    simp only [readUnsigned, other, digit, if_true, if_false, value, taken, left, List.length_nil]

/-- What follows the whole digits is read with the significand that they come to. -/
theorem readUnsigned_whole (negative : Bool) {whole : List UInt8} (h : Whole whole) :
    ∃ significand dropped, ∀ rest, EndsDigits rest →
      readUnsigned negative (whole ++ rest) =
        readNumberTail negative significand dropped rest := by
  cases h with
  | zero =>
    refine ⟨0, 0, fun rest ends => ?_⟩
    exact readUnsigned_whole_of_lt negative .zero ends (by decide)
  | @digits b more digit other all =>
    have all' : ∀ c ∈ b :: more, isDigit c = true := List.forall_mem_cons.mpr ⟨digit, all⟩
    refine ⟨(takeDigits 0 (b :: more)).1, (takeDigits 0 (b :: more)).2.2.length,
      fun rest ends => ?_⟩
    have rest_all (c : UInt8) (hc : c ∈ (takeDigits 0 (b :: more)).2.2) : isDigit c = true :=
      all' c ((takeDigits_suffix 0 (b :: more)).subset hc)
    have value := takeDigits_append all' ends 0
    rw [List.cons_append] at value ⊢
    simp only [readUnsigned, other, digit, if_true, if_false, value,
      Text.takeWhile_run rest_all ends, Text.dropWhile_run rest_all ends]

/-- Whole digits with what belongs to them. -/
theorem takes_readUnsigned (negative : Bool) {whole tail : List UInt8} (h : Whole whole)
    (ends : EndsDigits tail)
    (takes : ∀ significand dropped, Takes (readNumberTail negative significand dropped) tail) :
    Takes (readUnsigned negative) (whole ++ tail) := by
  obtain ⟨significand, dropped, read⟩ := readUnsigned_whole negative h
  obtain ⟨result, read'⟩ := takes significand dropped
  refine ⟨result, fun rest ends' => ?_⟩
  have both : EndsDigits (tail ++ rest) := by
    cases tail with
    | nil => exact ends'.endsDigits
    | cons b tail => exact .cons (ends b rfl) _
  rw [List.append_assoc, read _ both, read' rest ends']

/-! ## Written numbers -/

section Chars

variable {chars : List Char}

theorem isDigit_code {c : Char} (h : c.isDigit = true) : isDigit (code c) = true := by
  obtain ⟨low, high⟩ := isDigit_iff.mp h
  have value : (code c).toNat = c.toNat := toNat_toUInt8 (by omega)
  unfold isDigit
  rw [Bool.and_eq_true, decide_eq_true_eq, decide_eq_true_eq, UInt8.le_iff_toNat_le,
    UInt8.le_iff_toNat_le, value]
  exact ⟨low, high⟩

theorem bytesOf_digit_cons {c : Char} (h : c.isDigit = true) (chars : List Char) :
    bytesOf (c :: chars) = code c :: bytesOf chars := by
  have high := (isDigit_iff.mp h).2
  exact bytesOf_ascii_cons (by omega) chars

/-- The bytes of digits are digits. -/
theorem isDigit_of_mem_bytesOf (all : ∀ c ∈ chars, c.isDigit = true) {b : UInt8}
    (h : b ∈ bytesOf chars) : isDigit b = true := by
  induction chars with
  | nil => cases h
  | cons c chars ih =>
    have digit := all c List.mem_cons_self
    rw [bytesOf_digit_cons digit] at h
    rcases List.mem_cons.mp h with rfl | h
    · exact isDigit_code digit
    · exact ih (List.forall_mem_cons.mp all).2 h

theorem digits_bytesOf (all : ∀ c ∈ chars, c.isDigit = true) (some : chars ≠ []) :
    Digits (bytesOf chars) := by
  refine ⟨fun b hb => isDigit_of_mem_bytesOf all hb, ?_⟩
  cases chars with
  | nil => exact absurd rfl some
  | cons c chars =>
    rw [bytesOf_digit_cons (all c List.mem_cons_self)]
    exact List.cons_ne_nil _ _

theorem whole_bytesOf (all : ∀ c ∈ chars, c.isDigit = true)
    (front : chars = ['0'] ∨ ∃ c more, chars = c :: more ∧ c ≠ '0') : Whole (bytesOf chars) := by
  rcases front with rfl | ⟨c, more, rfl, other⟩
  · exact .zero
  · have digit := all c List.mem_cons_self
    rw [bytesOf_digit_cons digit]
    refine .digits (isDigit_code digit) ?_ ?_
    · intro same
      have high := (isDigit_iff.mp digit).2
      have value := congrArg UInt8.toNat same
      rw [toNat_toUInt8 (by omega)] at value
      exact other (Char.toNat_inj.mp value)
    · intro b hb
      exact isDigit_of_mem_bytesOf (List.forall_mem_cons.mp all).2 hb

/-- The value of digits. -/
theorem foldl_bytesOf (all : ∀ c ∈ chars, c.isDigit = true) (start : Nat) :
    (bytesOf chars).foldl (fun n b => n * 10 + digitValue b) start =
      Nat.ofDigitChars 10 chars start := by
  induction chars generalizing start with
  | nil => rfl
  | cons c chars ih =>
    have digit := all c List.mem_cons_self
    have high := (isDigit_iff.mp digit).2
    have value : digitValue (code c) = c.toNat - 48 := by
      rw [digitValue, toNat_toUInt8 (by omega)]
    rw [bytesOf_digit_cons digit, List.foldl_cons, value, Nat.mul_comm,
      ih (List.forall_mem_cons.mp all).2, Nat.ofDigitChars_cons]
    rfl

end Chars

theorem foldl_bytesOf_decimal (n : Nat) :
    (bytesOf (decimal n)).foldl (fun n b => n * 10 + digitValue b) 0 = n := by
  rw [foldl_bytesOf fun _ => isDigit_of_mem_decimal]
  exact decimalValue_decimal n

theorem whole_decimal (n : Nat) : Whole (bytesOf (decimal n)) := by
  apply whole_bytesOf fun _ => isDigit_of_mem_decimal
  by_cases zero : n = 0
  · rw [zero]
    exact .inl (Nat.toDigits_zero 10)
  · exact .inr (head_decimal_ne_zero zero)

/-- Digits without a sign, in front of anything that is no part of a number. -/
theorem readUnsigned_decimal (negative : Bool) {n : Nat} (small : n < 0x10000000000000000)
    {rest : List UInt8} (ends : EndsNumber rest) :
    readUnsigned negative (bytesOf (decimal n) ++ rest) =
      (wholeNumber negative n).map fun value => (value, rest) := by
  have value := foldl_bytesOf_decimal n
  rw [readUnsigned_whole_of_lt negative (whole_decimal n) ends.endsDigits (by rwa [value]), value]
  exact readNumberTail_end negative n ends

/-- A number that is no integer, without its sign. -/
theorem takes_written (negative : Bool) {unsigned : List Char} (h : Number.Written unsigned) :
    Takes (readUnsigned negative) (bytesOf unsigned) := by
  cases h with
  | places front all all' some =>
    rw [bytesOf_append, bytesOf_ascii_cons (by decide)]
    apply takes_readUnsigned negative (whole_bytesOf all front) (.cons rfl _)
    intro significand dropped
    exact takes_readNumberTail_places negative significand dropped (digits_bytesOf all' some)
  | @exponent c places down e other digit all =>
    have whole : Whole (bytesOf [c]) := by
      apply whole_bytesOf _ (.inr ⟨c, [], rfl, other⟩)
      intro c' hc
      rw [List.mem_singleton.mp hc]
      exact digit
    have digits : Digits (bytesOf (decimal e)) :=
      digits_bytesOf (fun _ => isDigit_of_mem_decimal) (decimal_ne_nil e)
    have sign : bytesOf ((if down then '-' else '+') :: decimal e) =
        (if down then code '-' else code '+') :: bytesOf (decimal e) := by
      cases down
      · exact bytesOf_ascii_cons (by decide) _
      · exact bytesOf_ascii_cons (by decide) _
    have split : c :: (if places.isEmpty then [] else '.' :: places) =
        [c] ++ (if places.isEmpty then [] else '.' :: places) := rfl
    rw [split, List.append_assoc, bytesOf_append]
    generalize bytesOf [c] = first at whole ⊢
    cases places with
    | nil =>
      simp only [List.isEmpty_nil, if_true, List.nil_append]
      rw [bytesOf_ascii_cons (by decide), sign]
      apply takes_readUnsigned negative whole (.cons rfl _)
      intro significand dropped
      exact takes_readNumberTail_exponent negative significand dropped down digits
    | cons c' places =>
      have places_digits := digits_bytesOf all (List.cons_ne_nil c' places)
      simp only [List.isEmpty_cons, Bool.false_eq_true, if_false]
      have mark : 'e'.toNat < 128 := by decide
      rw [List.cons_append, bytesOf_ascii_cons (by decide), bytesOf_append,
        bytesOf_ascii_cons mark, sign]
      apply takes_readUnsigned negative whole (.cons rfl _)
      intro significand dropped
      exact takes_readNumberTail_places_exponent negative significand dropped down places_digits
        digits

end TraceJournal.Json
