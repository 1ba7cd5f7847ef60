import TraceJournal.Number.Shortest
import TraceJournal.Proofs.Text.Digits

/-!
# Digits of numbers

The text of a number is made of the digits of its shortest decimal. No zero stands in front of
them, and there is at least one: zero lies in the rounding interval of no other number.
-/

namespace TraceJournal

namespace Text

/-- No zero stands in front of a number other than zero. -/
theorem head_decimal_ne_zero {n : Nat} (h : n ≠ 0) : ∃ c more, decimal n = c :: more ∧ c ≠ '0' := by
  induction n using Nat.strongRecOn with
  | ind n ih =>
    unfold decimal at ih ⊢
    by_cases small : n < 10
    · rw [Nat.toDigits_of_lt_base small]
      have all : ∀ d : Fin 10, d.val ≠ 0 → Nat.digitChar d.val ≠ '0' := by decide
      exact ⟨_, [], rfl, all ⟨n, small⟩ h⟩
    · have large : 10 ≤ n := by omega
      obtain ⟨c, more, front, other⟩ := ih (n / 10) (by omega) (by omega)
      rw [Nat.toDigits_of_base_le (by decide) large, front]
      exact ⟨c, _, rfl, other⟩

end Text

namespace Number

open TraceJournal.Text

theorem significand_pos {x : Binary64} (h : x.isZero = false) : 0 < x.significand := by
  have positive : x.magnitude ≠ 0 := by
    intro zero
    rw [Binary64.isZero, zero] at h
    cases h
  unfold Binary64.significand
  simp only
  split <;> omega

/-- Zero lies in no rounding interval of a number other than zero. -/
theorem not_contains_zero {r : Rounding} (lower : 0 < r.lower) (scale : 0 < r.scaleNum) {den : Nat}
    (positive : 0 < den) : r.contains 0 den = false := by
  have above : 0 < r.lower * r.scaleNum * den := Nat.mul_pos (Nat.mul_pos lower scale) positive
  unfold Rounding.contains
  simp only [Nat.zero_mul]
  split
  · rw [Bool.and_eq_false_iff]
    exact .inl (decide_eq_false (Nat.not_le_of_lt above))
  · rw [Bool.and_eq_false_iff]
    exact .inl (decide_eq_false (Nat.not_lt_zero _))

/-- The decimal on a grid lies in the rounding interval. -/
theorem contains_of_onGrid? {r : Rounding} {exponent : Int} {d : Decimal}
    (h : onGrid? r exponent = some d) :
    r.contains (d.digits * Nat.pow 10 exponent.toNat) (Nat.pow 10 (-exponent).toNat) = true := by
  unfold onGrid? at h
  simp only at h
  generalize Binary64.roundHalfEven _ _ = nearest at h
  generalize (if nearest = _ then _ else _) = other at h
  split at h
  · next inside =>
    cases h
    exact inside
  · split at h
    · next inside =>
      cases h
      exact inside
    · cases h

/-- The decimal on a grid is not zero. -/
theorem digits_of_onGrid? {r : Rounding} (lower : 0 < r.lower) (scale : 0 < r.scaleNum)
    {exponent : Int} {d : Decimal} (h : onGrid? r exponent = some d) : d.digits ≠ 0 := by
  have inside := contains_of_onGrid? h
  have positive : 0 < Nat.pow 10 (-exponent).toNat := Nat.pow_pos (by decide)
  intro zero
  rw [zero, Nat.zero_mul, not_contains_zero lower scale positive] at inside
  cases inside

/-- The shortest decimal of a number other than zero has digits, unless none is found at all. -/
theorem digits_shortest {x : Binary64} (h : x.isZero = false) :
    (shortest x).digits ≠ 0 ∨ shortest x = ⟨0, 0⟩ := by
  have positive := significand_pos h
  have lower : 0 < (Rounding.of x).lower := by
    simp only [Rounding.of]
    split <;> omega
  have scale : 0 < (Rounding.of x).scaleNum := Nat.pow_pos (by decide)
  unfold shortest
  simp only
  generalize tries : (List.range 17).filterMap _ = found
  cases found with
  | nil => exact .inr rfl
  | cons d rest =>
    left
    have mem : d ∈ d :: rest := List.mem_cons_self
    rw [← tries] at mem
    obtain ⟨n, -, grid⟩ := List.mem_filterMap.mp mem
    exact digits_of_onGrid? lower scale grid

/-- Zeros at the end are taken off some digits, of which the first one is none. -/
theorem dropZeros_digits {c : Char} (other : c ≠ '0') (more : List Char) :
    ∃ more', ((c :: more).reverse.dropWhile (· == '0')).reverse = c :: more' ∧ more' <+: more := by
  have stops (back : List Char) :
      (back ++ [c]).dropWhile (· == '0') = back.dropWhile (· == '0') ++ [c] := by
    induction back with
    | nil => rw [List.nil_append, List.dropWhile_cons_of_neg (by simpa using other)]; rfl
    | cons b back ih =>
      rw [List.cons_append, List.dropWhile_cons, List.dropWhile_cons]
      split
      · exact ih
      · rfl
  refine ⟨(more.reverse.dropWhile (· == '0')).reverse, ?_, ?_⟩
  · rw [List.reverse_cons, stops, List.reverse_append, List.reverse_singleton,
      List.singleton_append]
  · rw [← List.reverse_suffix, List.reverse_reverse]
    exact List.dropWhile_suffix _

/-- The digits of a decimal other than zero, without zeros at either end. -/
theorem scientific_digits {d : Decimal} (h : d.digits ≠ 0) :
    ∃ c more, d.scientific.1 = c :: more ∧ c ≠ '0' ∧ ∀ c' ∈ c :: more, c'.isDigit = true := by
  obtain ⟨c, more, digits, other⟩ := head_decimal_ne_zero h
  have all (c' : Char) (hc : c' ∈ c :: more) : c'.isDigit = true := by
    rw [← digits] at hc
    exact isDigit_of_mem_decimal hc
  obtain ⟨more', kept, front⟩ := dropZeros_digits other more
  refine ⟨c, more', ?_, other, ?_⟩
  · unfold decimal at digits
    unfold Decimal.scientific
    simp only [digits, kept]
  · intro c' hc
    rcases List.mem_cons.mp hc with rfl | hc
    · exact all _ List.mem_cons_self
    · exact all _ (List.mem_cons_of_mem c (front.subset hc))

/-- The text of a number, by its shape. -/
inductive Written : List Char → Prop where
  | places {whole places : List Char} : whole = ['0'] ∨ (∃ c more, whole = c :: more ∧ c ≠ '0') →
    (∀ c ∈ whole, c.isDigit = true) → (∀ c ∈ places, c.isDigit = true) → places ≠ [] →
    Written (whole ++ '.' :: places)
  | exponent {c : Char} {places : List Char} (down : Bool) (e : Nat) : c ≠ '0' → c.isDigit = true →
    (∀ c ∈ places, c.isDigit = true) →
    Written (c :: (if places.isEmpty then [] else '.' :: places) ++
      'e' :: (if down then '-' else '+') :: decimal e)

/-- The digits and the exponent from which the text of a number is made. -/
theorem scientific_shortest {x : Binary64} (h : x.isZero = false) :
    (∃ c more, (shortest x).scientific.1 = c :: more ∧ c ≠ '0' ∧
      ∀ c' ∈ c :: more, c'.isDigit = true) ∨ (shortest x).scientific = ([], 0) := by
  rcases digits_shortest h with some | none
  · exact .inl (scientific_digits some)
  · right
    rw [none]
    decide

theorem zero_digits : ∀ c ∈ ['0'], c.isDigit = true :=
  List.forall_mem_singleton.mpr rfl

/-- The text of a number after its sign. -/
theorem written_text (x : Binary64) :
    ∃ unsigned, text x = (if x.isNegative then ['-'] else []) ++ unsigned ∧ Written unsigned := by
  unfold text
  simp only
  generalize (if x.isNegative = true then ['-'] else []) = sign
  cases zero : x.isZero with
  | true =>
    rw [if_pos rfl]
    exact ⟨_, rfl, .places (.inl rfl) zero_digits zero_digits (by decide)⟩
  | false =>
    have parts := scientific_shortest zero
    rw [if_neg (by decide)]
    generalize (shortest x).scientific = parts' at parts
    obtain ⟨digits, e⟩ := parts'
    rcases parts with ⟨c, more, rfl, other, all⟩ | none
    · simp only at all ⊢
      have digit : c.isDigit = true := all c List.mem_cons_self
      have digits (c' : Char) (hc : c' ∈ more) : c'.isDigit = true :=
        all c' (List.mem_cons_of_mem c hc)
      have zeros (n : Nat) (c' : Char) (hc : c' ∈ List.replicate n '0') : c'.isDigit = true := by
        rw [List.eq_of_mem_replicate hc]
        rfl
      split
      · rw [List.append_assoc, List.append_assoc, List.take_succ_cons, List.drop_succ_cons,
          ← List.append_assoc (c :: _)]
        refine ⟨_, rfl, .places (.inr ⟨c, _, rfl, other⟩) ?_ ?_ ?_⟩
        · intro c' hc
          rcases List.mem_append.mp hc with front | filled
          · rcases List.mem_cons.mp front with rfl | front
            · exact digit
            · exact digits c' (List.mem_of_mem_take front)
          · exact zeros _ c' filled
        · split
          · exact zero_digits
          · intro c' hc
            exact digits c' (List.mem_of_mem_drop hc)
        · split
          · decide
          · next some => simpa using some
      · split
        · rw [List.append_assoc, List.cons_append, List.cons_append]
          refine ⟨_, rfl, .places (.inl rfl : ['0'] = ['0'] ∨ _) zero_digits ?_ (by simp)⟩
          intro c' hc
          rcases List.mem_append.mp hc with filled | hc
          · exact zeros _ c' filled
          · exact all c' hc
        · next negative =>
          have down : (if e < 0 then '-' else '+') = if decide (e < 0) then '-' else '+' := by
            simp only [decide_eq_true_eq]
          rw [List.append_assoc, List.append_assoc, List.take_succ_cons, List.take_zero,
            List.drop_succ_cons, List.drop_zero, ← List.append_assoc [c], List.singleton_append,
            down]
          exact ⟨_, rfl, .exponent _ _ other digit digits⟩
    · cases none
      rw [if_pos (by decide)]
      rw [List.append_assoc, List.append_assoc]
      exact ⟨_, rfl, .places (.inl rfl) zero_digits zero_digits (by decide)⟩

end Number

end TraceJournal
