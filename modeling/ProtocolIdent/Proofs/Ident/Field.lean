import ProtocolIdent.Proofs.Ident.Text

/-!
# The four bytes of an identifier

Four bytes and the identifier that they denote determine each other (`ofField_field`,
`field_ofField`), and the digits of the text are those of the bytes, in order
(`digits_eq_ofBytes`): text and header field are one encoding, written in two bases.
-/
namespace ProtocolIdent.Ident

@[simp] theorem ofField_field (id : Ident) : ofField id.field = id := by
  have bound : id.value.toNat < 256 ^ fieldSize := id.value.toNat_lt
  rw [ofField, map_toNat_field, Digits.value_fixed, Nat.mod_eq_of_lt bound, UInt32.ofNat_toNat]

theorem toNat_ofField {bytes : List UInt8} (whole : bytes.length = fieldSize) :
    (ofField bytes).value.toNat = Digits.value 256 (bytes.map UInt8.toNat) := by
  have bound := Digits.value_lt (Digits.byte_lt bytes)
  rw [List.length_map, whole] at bound
  exact UInt32.toNat_ofNat_of_lt' bound

/-- Byte `i` of the four that a number of 32 bits takes, most significant first. -/
def bigEndianByte (id : Ident) (i : Nat) : UInt8 :=
  UInt8.ofNat (id.value.toNat / 256 ^ (3 - i) % 256)

theorem getElem?_field (id : Ident) {i : Nat} (inside : i < 4) :
    id.field[i]? = some (id.bigEndianByte i) := by
  have digit := Digits.getElem?_fixed (b := 256) (n := id.value.toNat) inside
  rw [field, List.getElem?_map, fieldSize, digit]
  rfl

/-- Four bytes are the field of the identifier that they denote. -/
theorem field_ofField {bytes : List UInt8} (whole : bytes.length = fieldSize) :
    (ofField bytes).field = bytes := by
  have digits := Digits.fixed_value (Digits.byte_lt bytes)
  rw [List.length_map, whole] at digits
  rw [field, toNat_ofField whole, digits, List.map_map]
  exact (List.map_congr_left fun b _ => UInt8.ofNat_toNat).trans (List.map_id bytes)

theorem ofField_eq_iff {bytes : List UInt8} {id : Ident} (whole : bytes.length = fieldSize) :
    ofField bytes = id ↔ bytes = id.field := by
  constructor
  · intro denoted
    rw [← denoted, field_ofField whole]
  · intro same
    rw [same, ofField_field]

/-- The digits of the text are those of the bytes, in order. -/
theorem digits_eq_ofBytes (id : Ident) : id.digits = Hex.ofBytes id.field := by
  rw [Hex.ofBytes_eq_flatMap, map_toNat_field, Digits.flatMap_fixed (by decide : 16 ^ 2 = 256),
    digits]
  rfl

theorem digits_ofField {bytes : List UInt8} (whole : bytes.length = fieldSize) :
    (ofField bytes).digits = Hex.ofBytes bytes := by
  rw [digits_eq_ofBytes, field_ofField whole]

theorem text_ofField {bytes : List UInt8} (whole : bytes.length = fieldSize) :
    (ofField bytes).text = "0x" ++ String.ofList (Hex.ofBytes bytes) := by
  apply String.toList_inj.mp
  rw [toList_text, digits_ofField whole]
  simp

/-- The digits of four bytes, in either case, are read as the identifier that the bytes denote. -/
theorem ofText_of_toLower_eq {bytes : List UInt8} {cs : List Char}
    (whole : bytes.length = fieldSize) (written : cs.map Char.toLower = Hex.ofBytes bytes) :
    ofText ("0x" ++ String.ofList cs) = .ok (ofField bytes) := by
  refine ofText_eq_ok_iff.mpr ⟨cs, by simp, ?_⟩
  rw [digits_ofField whole]
  exact written

/-- The four bytes of an identifier that was read have the digits of the text. -/
theorem ofBytes_field_of_ofText {s : String} {id : Ident} (read : ofText s = .ok id) :
    Hex.ofBytes id.field = ((s.toList.drop 2).take digitCount).map Char.toLower := by
  obtain ⟨cs, shape, written⟩ := ofText_eq_ok_iff.mp read
  have eight := length_of_toLower_eq written
  rw [← digits_eq_ofBytes, ← written, shape]
  change _ = (cs.take digitCount).map _
  rw [List.take_of_length_le (Nat.le_of_eq eight)]

end ProtocolIdent.Ident
