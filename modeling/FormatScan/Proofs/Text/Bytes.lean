import FormatScan.Byte

/-!
# Texts and their bytes

The bytes of a text are all there is to it: different texts have different bytes, and from
its bytes a text is read back.
-/

namespace FormatScan

theorem toList_loop_eq (bytes : ByteArray) (i : Nat) (front : Bytes) :
    ByteArray.toList.loop bytes i front = front.reverse ++ bytes.data.toList.drop i := by
  fun_induction ByteArray.toList.loop bytes i front with
  | case1 i front hi ih =>
    have hlt : i < bytes.data.toList.length := hi
    have hget : bytes.get! i = bytes.data.toList[i] := getElem!_pos bytes.data i hi
    rw [ih, List.drop_eq_getElem_cons hlt, hget, List.reverse_cons, List.append_assoc]
    rfl
  | case2 i front hi =>
    have hle : bytes.data.toList.length ≤ i := Nat.le_of_not_lt hi
    rw [List.drop_of_length_le hle, List.append_nil]

theorem bytesOf_eq (text : String) : bytesOf text = text.toByteArray.data.toList := by
  unfold bytesOf ByteArray.toList
  exact toList_loop_eq text.toUTF8 0 []

/-- The bytes of a text are those of its characters, one character after the other. -/
theorem bytesOf_ofList (text : List Char) :
    bytesOf (String.ofList text) = text.flatMap String.utf8EncodeChar := by
  rw [bytesOf_eq, String.toByteArray_ofList, List.utf8Encode]
  exact List.toList_data_toByteArray

/-- A text has at least as many bytes as characters. -/
theorem length_le_length_bytesOf (text : List Char) :
    text.length ≤ (bytesOf (String.ofList text)).length := by
  rw [bytesOf_ofList]
  induction text with
  | nil => exact Nat.zero_le _
  | cons c text ih =>
    have hc := c.utf8Size_pos
    rw [List.flatMap_cons, List.length_append, String.length_utf8EncodeChar, List.length_cons]
    omega

/-- Texts with the same bytes are the same. -/
theorem bytesOf_inj {first second : String} : bytesOf first = bytesOf second ↔ first = second := by
  rw [bytesOf_eq, bytesOf_eq, Array.toList_inj, ← String.toByteArray_inj, ByteArray.ext_iff]

/-- A text is read back from its bytes. -/
theorem fromUTF8?_bytesOf (text : String) :
    String.fromUTF8? (ByteArray.mk (bytesOf text).toArray) = some text := by
  rw [bytesOf_eq, Array.toArray_toList]
  exact dif_pos text.isValidUTF8

/-- What is read from bytes as a text are the bytes of that text. -/
theorem eq_bytesOf_of_fromUTF8? {bytes : Bytes} {text : String}
    (h : String.fromUTF8? (ByteArray.mk bytes.toArray) = some text) : bytes = bytesOf text := by
  unfold String.fromUTF8? at h
  split at h
  · cases h
    rw [bytesOf_eq]
    rfl
  · cases h

/-- The code point of a byte's character is the byte. -/
theorem Byte.toNat_char (c : UInt8) : (Byte.char c).toNat = c.toNat := by
  have hlt := c.toNat_lt
  have hchar : Nat.isValidChar c.toNat := Or.inl (by omega)
  rw [Byte.char, Char.ofNat, dif_pos hchar]
  rfl

end FormatScan
