import TraceJournal.Json.Printer
import TraceJournal.Json.Token
import TraceJournal.Proofs.Text.Encoding

/-!
# Reading written texts

Every text is read back from its quoted form: the characters one after the other, each from its
escape or from its own bytes.
-/

namespace TraceJournal.Json

open TraceJournal.Text

/-- The bytes of a quoted text that `input` starts with are `bytes`, and `rest` follows its closing
mark. -/
def Quotes (input bytes rest : List UInt8) : Prop :=
  ∀ rounds, input.length ≤ rounds → readQuotedBytes rounds input = .ok (bytes, rest)

namespace Quotes

variable {input bytes rest : List UInt8}

theorem closing (rest : List UInt8) : Quotes (code '"' :: rest) [] rest := by
  intro rounds enough
  cases rounds with
  | zero => cases enough
  | succ rounds => rfl

/-- A byte that stands for itself. -/
theorem cons (h : Quotes input bytes rest) {b : UInt8} (mark : b ≠ code '"')
    (escape : b ≠ code '\\') (printable : ¬b < 32) : Quotes (b :: input) (b :: bytes) rest := by
  intro rounds enough
  cases rounds with
  | zero => cases enough
  | succ rounds =>
    have more := h rounds (Nat.le_of_succ_le_succ enough)
    rw [readQuotedBytes, if_neg mark, if_neg escape, if_neg printable, more]
    rfl

/-- Bytes that stand for themselves. -/
theorem append (h : Quotes input bytes rest) {plain : List UInt8}
    (all : ∀ b ∈ plain, b ≠ code '"' ∧ b ≠ code '\\' ∧ ¬b < 32) :
    Quotes (plain ++ input) (plain ++ bytes) rest := by
  induction plain with
  | nil => exact h
  | cons b plain ih =>
    obtain ⟨mark, escape, printable⟩ := all b List.mem_cons_self
    have more := ih fun c hc => all c (List.mem_cons_of_mem b hc)
    exact more.cons mark escape printable

/-- An escape. -/
theorem escape (h : Quotes input bytes rest) {written stands : List UInt8}
    (read : readEscape (written ++ input) = .ok (stands, input)) :
    Quotes (code '\\' :: written ++ input) (stands ++ bytes) rest := by
  intro rounds enough
  cases rounds with
  | zero => cases enough
  | succ rounds =>
    have more := h rounds (by
      simp only [List.cons_append, List.length_cons, List.length_append] at enough
      omega)
    rw [List.cons_append, readQuotedBytes, if_neg (by decide), if_pos rfl, read]
    simp only [bind, Except.bind, more]

end Quotes

/-! ## Escapes -/

theorem hexValue?_hexDigit {n : Nat} (h : n < 16) : hexValue? (code (hexDigit n)) = some n := by
  have all : ∀ n : Fin 16, hexValue? (code (hexDigit n)) = some n.val := by decide
  exact all ⟨n, h⟩

theorem codePointBytes_toNat (c : Char) : codePointBytes c.toNat = String.utf8EncodeChar c := by
  rw [codePointBytes, Char.ofNat_toNat, toBytes_eq, String.toList_singleton, bytesOf_cons,
    bytesOf_nil, List.append_nil]

/-- The escape of a control character. -/
theorem readEscape_control {c : Char} (h : c.toNat < 32) (input : List UInt8) :
    readEscape (code 'u' :: code '0' :: code '0' :: code (hexDigit (c.toNat / 16)) ::
      code (hexDigit (c.toNat % 16)) :: input) = .ok (String.utf8EncodeChar c, input) := by
  have zero : hexValue? (code '0') = some 0 := rfl
  have high : c.toNat / 16 < 16 := by omega
  have low : c.toNat % 16 < 16 := by omega
  have value : ((0 * 16 + 0) * 16 + c.toNat / 16) * 16 + c.toNat % 16 = c.toNat := by omega
  have digits : readHex (code '0' :: code '0' :: code (hexDigit (c.toNat / 16)) ::
      code (hexDigit (c.toNat % 16)) :: input) = .ok (c.toNat, input) := by
    simp only [readHex, zero, hexValue?_hexDigit high, hexValue?_hexDigit low, value]
  rw [readEscape, if_pos rfl, readCodePoint, digits]
  simp only [bind, Except.bind]
  rw [if_neg (by omega), if_neg (by omega)]
  simp only [codePointBytes_toNat]

theorem ofNat_of_toNat_eq {c : Char} {n : Nat} (h : c.toNat = n) : c = Char.ofNat n := by
  rw [← h, Char.ofNat_toNat]

/-- A character that stands for itself. -/
theorem plain_of_mem_encode {c : Char} (mark : c ≠ '"') (escape : c ≠ '\\')
    (printable : ¬c.toNat < 32) {b : UInt8} (h : b ∈ String.utf8EncodeChar c) :
    b ≠ code '"' ∧ b ≠ code '\\' ∧ ¬b < 32 := by
  have bounds : 32 ≤ b.toNat ∧ b.toNat ≠ 34 ∧ b.toNat ≠ 92 := by
    by_cases ascii : c.toNat < 128
    · rw [encode_ascii ascii, List.mem_singleton] at h
      have value : b.toNat = c.toNat := by
        rw [h]
        exact toNat_toUInt8 ascii
      have not_mark : c.toNat ≠ 34 := fun same => mark (ofNat_of_toNat_eq same)
      have not_escape : c.toNat ≠ 92 := fun same => escape (ofNat_of_toNat_eq same)
      omega
    · have large := le_of_mem_encode (Nat.le_of_not_lt ascii) h
      omega
  refine ⟨?_, ?_, ?_⟩
  · rintro rfl
    exact bounds.2.1 rfl
  · rintro rfl
    exact bounds.2.2 rfl
  · intro small
    exact Nat.not_le_of_lt (UInt8.lt_iff_toNat_lt.mp small) bounds.1

/-- One character. -/
theorem Quotes.char {input bytes rest : List UInt8} (h : Quotes input bytes rest) (c : Char) :
    Quotes (bytesOf (escapeChar c) ++ input) (String.utf8EncodeChar c ++ bytes) rest := by
  unfold escapeChar
  split
  · next quote =>
    subst quote
    exact h.escape rfl
  split
  · next backslash =>
    subst backslash
    exact h.escape rfl
  split
  · next backspace =>
    rw [ofNat_of_toNat_eq backspace]
    exact h.escape rfl
  split
  · next feed =>
    rw [ofNat_of_toNat_eq feed]
    exact h.escape rfl
  split
  · next newline =>
    subst newline
    exact h.escape rfl
  split
  · next carriage_return =>
    subst carriage_return
    exact h.escape rfl
  split
  · next tabulator =>
    subst tabulator
    exact h.escape rfl
  split
  · next control =>
    have ascii (digit : Nat) (small : digit < 16) : (hexDigit digit).toNat < 128 := by
      have all : ∀ n : Fin 16, (hexDigit n).toNat < 128 := by decide
      exact all ⟨digit, small⟩
    have written : bytesOf ['\\', 'u', '0', '0', hexDigit (c.toNat / 16),
        hexDigit (c.toNat % 16)] = code '\\' :: [code 'u', code '0', code '0',
        code (hexDigit (c.toNat / 16)), code (hexDigit (c.toNat % 16))] := by
      rw [bytesOf_ascii_cons (by decide), bytesOf_ascii_cons (by decide),
        bytesOf_ascii_cons (by decide), bytesOf_ascii_cons (by decide),
        bytesOf_ascii_cons (ascii _ (by omega)), bytesOf_ascii_cons (ascii _ (by omega)),
        bytesOf_nil]
    rw [written]
    exact h.escape (readEscape_control control input)
  · next mark escape _ _ _ _ _ printable =>
    rw [bytesOf_cons, bytesOf_nil, List.append_nil]
    exact h.append fun b hb => plain_of_mem_encode mark escape printable hb

/-- Every text is read back from its quoted form. -/
theorem readQuoted_escaped (s : String) (rest : List UInt8) :
    readQuoted (bytesOf (s.toList.flatMap escapeChar) ++ code '"' :: rest) = .ok (s, rest) := by
  have quotes (chars : List Char) :
      Quotes (bytesOf (chars.flatMap escapeChar) ++ code '"' :: rest) (bytesOf chars) rest := by
    induction chars with
    | nil => exact .closing rest
    | cons c chars ih =>
      rw [List.flatMap_cons, bytesOf_append, List.append_assoc, bytesOf_cons]
      exact ih.char c
  unfold readQuoted
  rw [quotes s.toList _ (Nat.le_refl _)]
  simp only [bind, Except.bind, ← toBytes_eq, ofBytes?_toBytes]

end TraceJournal.Json
