import Mathlib.Logic.Function.Iterate
import TraceJournal.Bytes.Checksum

/-!
# What a checksum detects

Dividing by one more bit loses nothing of the remainder: the highest bit of the polynomial is set,
so that the highest bit of the quotient tells which way the division went. So the remainder before a
byte is known from the one after it, and the byte from both; two sequences of bytes that differ in a
single byte never have the same checksum.
-/

namespace TraceJournal.Bytes

theorem toNat_half (remainder : UInt32) : (remainder >>> 1).toNat = remainder.toNat / 2 := by
  rw [UInt32.toNat_shiftRight]
  exact Nat.shiftRight_eq_div_pow _ _

/-- The highest bit after a division is the lowest bit before it. -/
theorem testBit_divideBit (remainder : UInt32) :
    (divideBit remainder).toNat.testBit 31 = decide (remainder &&& 1 = 1) := by
  have highest : polynomial.toNat.testBit 31 = true := by decide +kernel
  have half : (remainder >>> 1).toNat.testBit 31 = false := by
    have small := remainder.toNat_lt
    rw [toNat_half]
    exact Nat.testBit_lt_two_pow (by omega)
  unfold divideBit
  split
  · next odd => rw [UInt32.toNat_xor, Nat.testBit_xor, half, highest, decide_eq_true odd]; rfl
  · next even => rw [half, decide_eq_false even]

theorem divideBit_injective : Function.Injective divideBit := by
  intro r s same
  have parity : r &&& 1 = 1 ↔ s &&& 1 = 1 := by
    have highest := congrArg (fun remainder => remainder.toNat.testBit 31) same
    simpa only [testBit_divideBit, decide_eq_decide] using highest
  have half : r >>> 1 = s >>> 1 := by
    unfold divideBit at same
    by_cases odd : r &&& 1 = 1
    · rw [if_pos odd, if_pos (parity.mp odd)] at same
      exact (UInt32.xor_left_inj _).mp same
    · rwa [if_neg odd, if_neg (mt parity.mpr odd)] at same
  have quotient := congrArg UInt32.toNat half
  rw [toNat_half, toNat_half] at quotient
  have lowest : r.toNat % 2 = 1 ↔ s.toNat % 2 = 1 := by
    simpa only [← UInt32.toNat_inj, UInt32.toNat_and, UInt32.toNat_one, Nat.and_one_is_mod]
      using parity
  apply UInt32.toNat_inj.mp
  omega

theorem repeat_injective {α : Type} {f : α → α} (h : Function.Injective f) (n : Nat) :
    Function.Injective (Nat.repeat f n) := by
  induction n with
  | zero => exact Function.injective_id
  | succ n ih => exact h.comp ih

/-- The remainder before a byte is known from the byte and the remainder after it. -/
theorem divideByte_left_injective (byte : UInt8) : Function.Injective (divideByte · byte) := by
  intro r s same
  exact (UInt32.xor_left_inj _).mp (repeat_injective divideBit_injective 8 same)

/-- A byte is known from the remainders before and after it. -/
theorem divideByte_right_injective (remainder : UInt32) :
    Function.Injective (divideByte remainder) := by
  intro b c same
  have word := (UInt32.xor_right_inj _).mp (repeat_injective divideBit_injective 8 same)
  have number := congrArg UInt32.toNat word
  rw [UInt8.toNat_toUInt32, UInt8.toNat_toUInt32] at number
  exact UInt8.toNat_inj.mp number

theorem foldl_divideByte_injective (bytes : List UInt8) :
    Function.Injective (bytes.foldl divideByte) := by
  induction bytes with
  | nil => exact Function.injective_id
  | cons byte rest ih => exact ih.comp (divideByte_left_injective byte)

/-- With another byte in one place, bytes have another checksum. -/
theorem checksum_ne {front back : List UInt8} {b c : UInt8} (other : b ≠ c) :
    checksum (front ++ b :: back) ≠ checksum (front ++ c :: back) := by
  intro same
  unfold checksum at same
  have remainders := (UInt32.xor_left_inj _).mp same
  rw [List.foldl_append, List.foldl_append, List.foldl_cons, List.foldl_cons] at remainders
  exact other (divideByte_right_injective _ (foldl_divideByte_injective back remainders))

/-- A change of a single byte changes the checksum. -/
theorem checksum_set_ne {bytes : List UInt8} {i : Nat} {b : UInt8}
    (changed : bytes.set i b ≠ bytes) : checksum (bytes.set i b) ≠ checksum bytes := by
  have inside : i < bytes.length := by
    by_contra beyond
    exact changed (List.set_eq_of_length_le (Nat.le_of_not_lt beyond))
  have split (c : UInt8) : bytes.set i c = bytes.take i ++ c :: bytes.drop (i + 1) := by
    rw [List.set_eq_take_append_cons_drop, if_pos inside]
  have whole : bytes.set i bytes[i] = bytes := List.set_getElem_self inside
  have other : b ≠ bytes[i] := by
    rintro rfl
    exact changed whole
  have differs : checksum (bytes.take i ++ b :: bytes.drop (i + 1)) ≠
      checksum (bytes.take i ++ bytes[i] :: bytes.drop (i + 1)) := checksum_ne other
  rwa [← split, ← split, whole] at differs

end TraceJournal.Bytes
