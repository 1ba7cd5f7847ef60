import Mathlib.Algebra.Group.Nat.Defs
import TraceJournal.Text.Blank
import TraceJournal.Text.Digits

/-!
# Runs of digits

The characters of a number are digits, at least one; so no blank stands among them, and a run of
them ends where something else follows. A number that is filled up to a width has exactly that
width as long as it is small enough.
-/

namespace TraceJournal.Text

theorem isDigit_iff {c : Char} : c.isDigit = true ↔ 48 ≤ c.toNat ∧ c.toNat ≤ 57 := by
  unfold Char.isDigit
  rw [Bool.and_eq_true, decide_eq_true_eq, decide_eq_true_eq]
  exact Iff.rfl

theorem isDigit_of_mem_decimal {n : Nat} {c : Char} (h : c ∈ decimal n) : c.isDigit = true :=
  Nat.isDigit_of_mem_toDigits (by decide) (by decide) h

theorem decimal_ne_nil (n : Nat) : decimal n ≠ [] := Nat.toDigits_ne_nil

theorem isDigit_of_mem_paddedDecimal {width n : Nat} {c : Char} (h : c ∈ paddedDecimal width n) :
    c.isDigit = true := by
  rcases List.mem_append.mp h with zero | digit
  · rw [List.eq_of_mem_replicate zero]
    rfl
  · exact isDigit_of_mem_decimal digit

theorem paddedDecimal_ne_nil (width n : Nat) : paddedDecimal width n ≠ [] := by
  intro empty
  exact decimal_ne_nil n (List.append_eq_nil_iff.mp empty).2

theorem length_paddedDecimal {width n : Nat} (positive : 0 < width) (h : n < 10 ^ width) :
    (paddedDecimal width n).length = width := by
  have short : (decimal n).length ≤ width :=
    (Nat.length_toDigits_le_iff (by decide) positive).mpr h
  rw [paddedDecimal, List.length_append, List.length_replicate]
  omega

section Run

variable {α : Type} {p : α → Bool} {front rest : List α}

/-- A run of characters of some kind ends where something else follows, or nothing. -/
theorem takeWhile_run (all : ∀ c ∈ front, p c = true) (stops : ∀ c ∈ rest.head?, p c = false) :
    (front ++ rest).takeWhile p = front := by
  rw [List.takeWhile_append_of_pos all]
  cases rest with
  | nil => rw [List.takeWhile_nil, List.append_nil]
  | cons c rest =>
    rw [List.takeWhile_cons_of_neg (by rw [stops c rfl]; decide), List.append_nil]

theorem dropWhile_run (all : ∀ c ∈ front, p c = true) (stops : ∀ c ∈ rest.head?, p c = false) :
    (front ++ rest).dropWhile p = rest := by
  rw [List.dropWhile_append_of_pos all]
  cases rest with
  | nil => rfl
  | cons c rest => rw [List.dropWhile_cons_of_neg (by rw [stops c rfl]; decide)]

end Run

theorem isBlank_of_isDigit {c : Char} (h : c.isDigit = true) : isBlank c = false := by
  obtain ⟨low, high⟩ := isDigit_iff.mp h
  unfold isBlank
  simp only [Bool.or_eq_false_iff, Bool.and_eq_false_iff, decide_eq_false_iff_not,
    beq_eq_false_iff_ne]
  omega

/-- No blank stands in front of a run of digits. -/
theorem dropBlanks_digits {digits rest : List Char} (all : ∀ c ∈ digits, c.isDigit = true)
    (some : digits ≠ []) : dropBlanks (digits ++ rest) = digits ++ rest := by
  cases digits with
  | nil => exact absurd rfl some
  | cons c digits =>
    have first := isBlank_of_isDigit (all c List.mem_cons_self)
    rw [dropBlanks, List.cons_append, List.dropWhile_cons_of_neg (by rw [first]; decide)]

end TraceJournal.Text
