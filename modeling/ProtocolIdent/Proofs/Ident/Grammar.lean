import Mathlib.Algebra.BigOperators.Group.Finset.Basic
import Mathlib.Algebra.BigOperators.Ring.Finset
import Mathlib.Data.List.GetD
import ProtocolIdent.Proofs.Ident.Text
import ProtocolIdent.Proofs.Text.Utf8.Decode

/-!
# The grammar of identifier texts

As bytes, the texts that are read are `0x` and exactly eight hexadecimal digits of either case.
The identifier is the number that the digits denote by their places, most significant first, and
the error about any other text carries that text (`ofText_by_grammar`). No character of several
bytes has a place in it, whatever the length of the text in bytes.
-/
namespace ProtocolIdent

/-- A digit counts as often as the base to the number of digits behind it. -/
theorem Digits.value_eq_sum (b : Nat) (ds : List Nat) :
    value b ds = ∑ i ∈ Finset.range ds.length, ds.getD i 0 * b ^ (ds.length - 1 - i) := by
  induction ds using List.reverseRecOn with
  | nil => rfl
  | append_singleton ds d ih =>
    have front : ∀ i ∈ Finset.range ds.length,
        (ds ++ [d]).getD i 0 * b ^ (ds.length - i) =
          ds.getD i 0 * b ^ (ds.length - 1 - i) * b := by
      intro i inside
      have before : i < ds.length := Finset.mem_range.mp inside
      have behind : ds.length - i = ds.length - 1 - i + 1 := by omega
      rw [List.getD_append _ _ _ _ before, behind, Nat.pow_succ, Nat.mul_assoc]
    rw [value_concat, ih, Finset.sum_mul, List.length_append, List.length_singleton,
      Nat.add_sub_cancel, Finset.sum_range_succ, Finset.sum_congr rfl front]
    simp

/-! ## Digits as bytes -/

namespace Hex

/-- The bytes of the decimal digits, of the letters from `A` to `F` and of those from `a` to `f`. -/
def IsDigitByte (b : UInt8) : Prop :=
  (0x30 ≤ b ∧ b ≤ 0x39) ∨ (0x41 ≤ b ∧ b ≤ 0x46) ∨ (0x61 ≤ b ∧ b ≤ 0x66)

instance (b : UInt8) : Decidable (IsDigitByte b) :=
  inferInstanceAs (Decidable (_ ∨ _))

/-- The number of a digit. -/
def digitOfByte (b : UInt8) : Nat :=
  if b ≤ 0x39 then b.toNat - 0x30 else if b ≤ 0x46 then b.toNat - 0x37 else b.toNat - 0x57

theorem value?_of_isDigitByte {b : UInt8} (digit : IsDigitByte b) :
    b.toNat < 128 ∧ value? (Char.ofNat b.toNat) = some (digitOfByte b) := by
  revert digit
  exact Utf8.forall_byte (by decide +kernel) b

theorem isDigitByte_of_value? {c : Char} {d : Nat} (read : value? c = some d) :
    IsDigitByte (UInt8.ofNat c.toNat) := by
  have all : ∀ n < 128, value? (Char.ofNat n) ≠ none → IsDigitByte (UInt8.ofNat n) := by
    decide +kernel
  have here := all c.toNat (lt_of_value?_eq_some read).1
  rw [Char.ofNat_toNat] at here
  exact here (by simp [read])

theorem mapM_value?_asciiChars {bytes : List UInt8} (digits : ∀ b ∈ bytes, IsDigitByte b) :
    (Utf8.asciiChars bytes).mapM value? = some (bytes.map digitOfByte) := by
  induction bytes with
  | nil => rfl
  | cons b bytes ih =>
    have first := (value?_of_isDigitByte (digits b List.mem_cons_self)).2
    have later := ih fun a member => digits a (List.mem_cons_of_mem b member)
    rw [Utf8.asciiChars] at later ⊢
    rw [List.map_cons, List.mapM_cons, first, later]
    rfl

end Hex

/-! ## The texts that are read -/

namespace Ident

/-- The bytes are `0x` and these eight digits. -/
def IsText (bytes digits : List UInt8) : Prop :=
  bytes = 0x30 :: 0x78 :: digits ∧ digits.length = 8 ∧ ∀ b ∈ digits, Hex.IsDigitByte b

/-- The identifier of eight digits. -/
def ofDigitBytes (digits : List UInt8) : Ident :=
  ⟨UInt32.ofNat (Digits.value 16 (digits.map Hex.digitOfByte))⟩

theorem toNat_ofDigitBytes {digits : List UInt8} (eight : digits.length = 8)
    (hex : ∀ b ∈ digits, Hex.IsDigitByte b) :
    (ofDigitBytes digits).value.toNat =
      ∑ i ∈ Finset.range 8, Hex.digitOfByte (digits.getD i 0x30) * 16 ^ (7 - i) := by
  have small : ∀ d ∈ digits.map Hex.digitOfByte, d < 16 := by
    intro d member
    obtain ⟨b, listed, rfl⟩ := List.mem_map.mp member
    exact (Hex.lt_of_value?_eq_some (Hex.value?_of_isDigitByte (hex b listed)).2).2
  have bound := Digits.value_lt small
  rw [List.length_map, eight] at bound
  have zero : Hex.digitOfByte 0x30 = 0 := by decide
  rw [ofDigitBytes, UInt32.toNat_ofNat_of_lt' bound, Digits.value_eq_sum, List.length_map, eight]
  refine Finset.sum_congr rfl fun i _ => ?_
  rw [← zero, List.getD_map]

theorem ofText_of_isText {s : String} {digits : List UInt8}
    (text : IsText (Utf8.encode s) digits) : ofText s = .ok (ofDigitBytes digits) := by
  obtain ⟨bytes, eight, hex⟩ := text
  have ascii : ∀ b ∈ (0x30 :: 0x78 :: digits : List UInt8), b.toNat < 128 := by
    intro b member
    simp only [List.mem_cons] at member
    rcases member with rfl | rfl | listed
    · decide
    · decide
    · exact (Hex.value?_of_isDigitByte (hex b listed)).1
  have shape : s.toList = '0' :: 'x' :: Utf8.asciiChars digits :=
    Utf8.toList_of_ascii bytes ascii
  have count : (Utf8.asciiChars digits).length = digitCount := by
    rw [Utf8.asciiChars, List.length_map, eight]
    rfl
  have read : ofDigits? (Utf8.asciiChars digits) = some (ofDigitBytes digits) := by
    rw [ofDigits?, if_pos count, Hex.mapM_value?_asciiChars hex]
    rfl
  unfold ofText
  rw [shape]
  simp only [read]

theorem isText_of_ofText {s : String} {id : Ident} (read : ofText s = .ok id) :
    ∃ digits, IsText (Utf8.encode s) digits := by
  obtain ⟨cs, shape, written⟩ := ofText_eq_ok_iff.mp read
  have values : ∀ c ∈ cs, ∃ d, Hex.value? c = some d :=
    fun c member => exists_value?_of_mem written member
  have ascii : ∀ c ∈ '0' :: 'x' :: cs, c.toNat < 128 := by
    intro c member
    simp only [List.mem_cons] at member
    rcases member with rfl | rfl | listed
    · decide
    · decide
    · obtain ⟨d, value⟩ := values c listed
      exact (Hex.lt_of_value?_eq_some value).1
  refine ⟨cs.map fun c => UInt8.ofNat c.toNat, ?_, ?_, ?_⟩
  · rw [← String.ofList_toList (s := s), shape, Utf8.encode_of_ascii ascii]
    rfl
  · rw [List.length_map, length_of_toLower_eq written]
    rfl
  · intro b member
    obtain ⟨c, listed, rfl⟩ := List.mem_map.mp member
    obtain ⟨d, value⟩ := values c listed
    exact Hex.isDigitByte_of_value? value

theorem length_encode_text (id : Ident) : (Utf8.encode id.text).length = 10 := by
  obtain ⟨digits, bytes, eight, -⟩ := isText_of_ofText (ofText_text id)
  rw [bytes, List.length_cons, List.length_cons, eight]

/-- A text is read exactly if its UTF-8 bytes are `0x` and eight hexadecimal digits of either
case; then each digit counts sixteen times as much as the one behind it. Any other text, of any
length and with any characters, is refused by an error that carries it unchanged. -/
theorem ofText_by_grammar (s : String) :
    ((∃ id, ofText s = .ok id) ↔ ∃ digits, IsText s.toUTF8.data.toList digits) ∧
    (∀ digits, IsText s.toUTF8.data.toList digits → ∃ id, ofText s = .ok id ∧
      id.value.toNat =
        ∑ i ∈ Finset.range 8, Hex.digitOfByte (digits.getD i 0x30) * 16 ^ (7 - i)) ∧
    ((¬ ∃ digits, IsText s.toUTF8.data.toList digits) → ofText s = .error (.malformed s)) := by
  rw [← Utf8.encode_eq_toUTF8]
  refine ⟨⟨?_, ?_⟩, ?_, ?_⟩
  · rintro ⟨id, read⟩
    exact isText_of_ofText read
  · rintro ⟨digits, text⟩
    exact ⟨_, ofText_of_isText text⟩
  · intro digits text
    exact ⟨_, ofText_of_isText text, toNat_ofDigitBytes text.2.1 text.2.2⟩
  · intro other
    exact ofText_of_ne_ok fun id read => other (isText_of_ofText read)

/-- Digits of both cases behind a leading zero, and a text of ten bytes whose last digit but one
is a character of two bytes. -/
theorem ofText_of_ten_bytes :
    (∃ id, ofText "0x0C229d94" = .ok id ∧ id.value.toNat = 0x0c229d94) ∧
    ofText "0x0c229é4" = .error (.malformed "0x0c229é4") := by
  constructor
  · have text : IsText "0x0C229d94".toUTF8.data.toList
        [0x30, 0x43, 0x32, 0x32, 0x39, 0x64, 0x39, 0x34] := by
      refine ⟨by decide +kernel, by decide, by decide +kernel⟩
    have sum : ∑ i ∈ Finset.range 8, Hex.digitOfByte
        ([0x30, 0x43, 0x32, 0x32, 0x39, 0x64, 0x39, 0x34].getD i 0x30) * 16 ^ (7 - i) =
          0x0c229d94 := by
      decide +kernel
    obtain ⟨id, read, value⟩ := (ofText_by_grammar "0x0C229d94").2.1 _ text
    exact ⟨id, read, value.trans sum⟩
  · refine (ofText_by_grammar "0x0c229é4").2.2 ?_
    have encoded : "0x0c229é4".toUTF8.data.toList =
        [0x30, 0x78, 0x30, 0x63, 0x32, 0x32, 0x39, 0xC3, 0xA9, 0x34] := by
      decide +kernel
    rintro ⟨digits, bytes, -, hex⟩
    rw [encoded, List.cons_eq_cons, List.cons_eq_cons] at bytes
    rw [← bytes.2.2] at hex
    exact absurd (hex 0xC3 (by decide)) (by decide)

end Ident

end ProtocolIdent
