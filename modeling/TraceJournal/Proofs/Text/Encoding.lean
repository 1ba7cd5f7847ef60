import TraceJournal.Text.Utf8

/-!
# Bytes of characters

The bytes of a text are those of its characters, one after the other. A character of the ASCII range
is the byte of its number; all bytes of any other one are from 128 on.
-/

namespace TraceJournal.Text

/-- The bytes of some characters. -/
def bytesOf (chars : List Char) : List UInt8 := chars.flatMap String.utf8EncodeChar

@[simp] theorem bytesOf_nil : bytesOf [] = [] := rfl

theorem bytesOf_cons (c : Char) (chars : List Char) :
    bytesOf (c :: chars) = String.utf8EncodeChar c ++ bytesOf chars := List.flatMap_cons

@[simp] theorem bytesOf_append (chars more : List Char) :
    bytesOf (chars ++ more) = bytesOf chars ++ bytesOf more := List.flatMap_append

theorem toBytes_ofList (chars : List Char) : toBytes (String.ofList chars) = bytesOf chars := by
  unfold toBytes
  rw [String.toUTF8_eq_toByteArray, String.toByteArray_ofList, List.utf8Encode]
  exact List.toList_data_toByteArray

theorem toBytes_eq (s : String) : toBytes s = bytesOf s.toList := by
  rw [← toBytes_ofList, String.ofList_toList]

/-- The byte of a character of the ASCII range has its number. -/
theorem toNat_toUInt8 {c : Char} (h : c.toNat < 128) : c.toUInt8.toNat = c.toNat := by
  have value : c.toUInt8.toNat = c.toNat % 256 := UInt32.toNat_toUInt8 c.val
  rw [value]
  exact Nat.mod_eq_of_lt (by omega)

/-- A character of the ASCII range is one byte. -/
theorem encode_ascii {c : Char} (h : c.toNat < 128) : String.utf8EncodeChar c = [c.toUInt8] := by
  unfold String.utf8EncodeChar
  have small : c.val.toNat ≤ 0x7f := Nat.le_of_lt_succ h
  simp only [if_pos small]
  rfl

theorem bytesOf_ascii_cons {c : Char} (h : c.toNat < 128) (chars : List Char) :
    bytesOf (c :: chars) = c.toUInt8 :: bytesOf chars := by
  rw [bytesOf_cons, encode_ascii h, List.singleton_append]

private theorem le_toNat_ofNat {n : Nat} (h : 128 ≤ n) (h' : n < 256) :
    128 ≤ (UInt8.ofNat n).toNat := by
  rw [UInt8.toNat_ofNat', Nat.mod_eq_of_lt h']
  exact h

/-- No byte of a character outside the ASCII range is in that range. -/
theorem le_of_mem_encode {c : Char} (h : 128 ≤ c.toNat) {b : UInt8}
    (hb : b ∈ String.utf8EncodeChar c) : 128 ≤ b.toNat := by
  have large : ¬c.val.toNat ≤ 0x7f := by
    have := h
    simp only [Char.toNat] at this
    omega
  unfold String.utf8EncodeChar at hb
  simp only [if_neg large] at hb
  split at hb
  · rcases List.mem_cons.mp hb with rfl | hb
    · exact le_toNat_ofNat (by omega) (by omega)
    · rw [List.mem_singleton.mp hb]
      exact le_toNat_ofNat (by omega) (by omega)
  · split at hb
    · rcases List.mem_cons.mp hb with rfl | hb
      · exact le_toNat_ofNat (by omega) (by omega)
      · rcases List.mem_cons.mp hb with rfl | hb
        · exact le_toNat_ofNat (by omega) (by omega)
        · rw [List.mem_singleton.mp hb]
          exact le_toNat_ofNat (by omega) (by omega)
    · rcases List.mem_cons.mp hb with rfl | hb
      · exact le_toNat_ofNat (by omega) (by omega)
      · rcases List.mem_cons.mp hb with rfl | hb
        · exact le_toNat_ofNat (by omega) (by omega)
        · rcases List.mem_cons.mp hb with rfl | hb
          · exact le_toNat_ofNat (by omega) (by omega)
          · rw [List.mem_singleton.mp hb]
            exact le_toNat_ofNat (by omega) (by omega)

end TraceJournal.Text
