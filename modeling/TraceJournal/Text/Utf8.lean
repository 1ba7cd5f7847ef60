/-!
# Texts as bytes

The UTF-8 encoding of texts as lists of bytes.
-/

namespace TraceJournal.Text

/-- The bytes of a text. -/
def toBytes (s : String) : List UInt8 := s.toUTF8.data.toList

/-- The text with the given bytes, if they are well-formed. -/
def ofBytes? (bytes : List UInt8) : Option String := String.fromUTF8? ⟨bytes.toArray⟩

/-- Every text is read back from its bytes. -/
theorem ofBytes?_toBytes (s : String) : ofBytes? (toBytes s) = some s := by
  have same : (⟨(toBytes s).toArray⟩ : ByteArray) = s.toUTF8 := rfl
  have valid : s.toUTF8.IsValidUTF8 := s.isValidUTF8
  unfold ofBytes?
  rw [same, String.fromUTF8?, dif_pos valid]
  rfl

end TraceJournal.Text
