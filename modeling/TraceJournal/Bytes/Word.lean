/-!
# Words of bytes

Numbers below `2 ^ 32` as four bytes, the lowest first.

Library tracelog-store, module `segment`.
-/

namespace TraceJournal.Bytes

/-- The four lowest bytes of a number, the lowest first. Source: tracelog-store
`SegmentTraceStore.insert`, where it writes a header. -/
def ofNumber (n : Nat) : List UInt8 :=
  [.ofNat n, .ofNat (n / 256), .ofNat (n / 65536), .ofNat (n / 16777216)]

/-- The number that the first four bytes make, the lowest first; bytes that are missing are zero.
Source: tracelog-store `read_frame`, where it reads a header. -/
def toNumber (bytes : List UInt8) : Nat :=
  let byte (n : Nat) : Nat := (bytes[n]?.getD 0).toNat
  byte 0 + 256 * byte 1 + 65536 * byte 2 + 16777216 * byte 3

/-- A number that fits is read back from its bytes, whatever follows them. -/
theorem toNumber_ofNumber {n : Nat} (h : n < 4294967296) (rest : List UInt8) :
    toNumber (ofNumber n ++ rest) = n := by
  simp only [toNumber, ofNumber, List.cons_append, List.getElem?_cons_zero,
    List.getElem?_cons_succ, Option.getD_some, UInt8.toNat_ofNat']
  omega

/-- Four bytes are known from the number that they make. -/
theorem toNumber_injective {bytes bytes' : List UInt8} (four : bytes.length = 4)
    (four' : bytes'.length = 4) (same : toNumber bytes = toNumber bytes') : bytes = bytes' := by
  obtain ⟨a₀, a₁, a₂, a₃, rfl⟩ : ∃ a₀ a₁ a₂ a₃, bytes = [a₀, a₁, a₂, a₃] := by
    match bytes, four with
    | [a₀, a₁, a₂, a₃], _ => exact ⟨a₀, a₁, a₂, a₃, rfl⟩
  obtain ⟨b₀, b₁, b₂, b₃, rfl⟩ : ∃ b₀ b₁ b₂ b₃, bytes' = [b₀, b₁, b₂, b₃] := by
    match bytes', four' with
    | [b₀, b₁, b₂, b₃], _ => exact ⟨b₀, b₁, b₂, b₃, rfl⟩
  have bound (b : UInt8) : b.toNat < 256 := b.toNat_lt
  have := bound a₀
  have := bound a₁
  have := bound a₂
  have := bound b₀
  have := bound b₁
  have := bound b₂
  simp only [toNumber, List.getElem?_cons_zero, List.getElem?_cons_succ, Option.getD_some] at same
  simp only [List.cons.injEq, ← UInt8.toNat_inj, and_true]
  omega

/-- Four bytes make a number below `2 ^ 32`. -/
theorem toNumber_lt (bytes : List UInt8) : toNumber bytes < 4294967296 := by
  have bound (b : UInt8) : b.toNat < 256 := b.toNat_lt
  have h0 := bound (bytes[0]?.getD 0)
  have h1 := bound (bytes[1]?.getD 0)
  have h2 := bound (bytes[2]?.getD 0)
  have h3 := bound (bytes[3]?.getD 0)
  simp only [toNumber]
  omega

end TraceJournal.Bytes
