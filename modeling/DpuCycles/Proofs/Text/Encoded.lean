namespace DpuCycles.Text

/-! # Bytes of texts -/

/-- A list of bytes is collected from the byte at a position on, behind what is there. -/
theorem toList_loop
    (bytes : ByteArray)
    (position : Nat)
    (collected : List UInt8) :
    ByteArray.toList.loop bytes position collected =
      collected.reverse ++ bytes.data.toList.drop position := by
  induction position, collected using ByteArray.toList.loop.induct bytes with
  | case1 position collected inside inductionHypothesis =>
      have within : position < bytes.data.toList.length := inside
      have byte : bytes.get! position = bytes.data.toList[position] := by
        simp only [ByteArray.get!, Array.getElem_toList]
        exact getElem!_pos bytes.data position inside
      rw [ByteArray.toList.loop, if_pos inside, inductionHypothesis,
        List.drop_eq_getElem_cons within, byte, List.reverse_cons, List.append_assoc,
        List.singleton_append]
  | case2 position collected outside =>
      have beyond : bytes.data.toList.length ≤ position := Nat.not_lt.mp outside
      rw [ByteArray.toList.loop, if_neg outside, List.drop_eq_nil_of_le beyond, List.append_nil]

theorem toList_bytes (bytes : ByteArray) :
    bytes.toList = bytes.data.toList := by
  rw [ByteArray.toList, toList_loop]
  rfl

theorem toList_toUTF8_append (left right : String) :
    (left ++ right).toUTF8.toList = left.toUTF8.toList ++ right.toUTF8.toList := by
  simp only [toList_bytes, String.toUTF8_eq_toByteArray, String.toByteArray_append,
    ByteArray.toList_data_append]

/-- A space is one byte. -/
theorem toList_toUTF8_spaces (count : Nat) :
    (String.ofList (List.replicate count ' ')).toUTF8.toList = List.replicate count 0x20 := by
  have one : (String.ofList [' ']).toUTF8.toList = [0x20] := by
    rw [toList_bytes]
    decide
  induction count with
  | zero =>
      rw [toList_bytes]
      rfl
  | succ count inductionHypothesis =>
      have front : String.ofList (List.replicate (count + 1) ' ') =
          String.ofList [' '] ++ String.ofList (List.replicate count ' ') := by
        rw [← String.ofList_append]
        rfl
      rw [front, toList_toUTF8_append, one, inductionHypothesis]
      rfl

/-- The bytes of a text are the text in UTF-8. -/
theorem fromUTF8?_toUTF8 (text : String) :
    String.fromUTF8? ⟨text.toUTF8.toList.toArray⟩ = some text := by
  have bytes : (⟨text.toUTF8.toList.toArray⟩ : ByteArray) = text.toByteArray := by
    rw [toList_bytes, Array.toArray_toList]
    rfl
  rw [bytes, String.fromUTF8?]
  exact dif_pos text.isValidUTF8

end DpuCycles.Text
