import ProtocolIdent.Header
import ProtocolIdent.Proofs.Ident.Field

/-!
# The header field at the front of a buffer

Reading and writing need room for four bytes and look at nothing behind them. A buffer is
accepted exactly if its first four bytes are the field of the expected identifier
(`accepts_iff`), so nothing that follows a field that was written, and nothing that stood there
before, changes the answer (`accepts_written_iff`). The field and the text of an identifier are
one encoding (`text_and_field_agree`).
-/
namespace ProtocolIdent.Header

open Ident (fieldSize)

theorem read_of_room {buffer : List UInt8} (room : fieldSize ≤ buffer.length) :
    read buffer = .ok (Ident.ofField (buffer.take fieldSize)) := by
  unfold read
  rw [if_neg (Nat.not_lt.mpr room)]

theorem write_of_room {buffer : List UInt8} (id : Ident) (room : fieldSize ≤ buffer.length) :
    write buffer id =
      .ok { count := fieldSize, buffer := id.field ++ buffer.drop fieldSize } := by
  unfold write
  rw [if_neg (Nat.not_lt.mpr room)]

theorem read_of_short {buffer : List UInt8} (short : buffer.length < fieldSize) :
    read buffer = .error (tooShort buffer) := by
  unfold read
  rw [if_pos short]

theorem write_of_short {buffer : List UInt8} (id : Ident) (short : buffer.length < fieldSize) :
    write buffer id = .error (tooShort buffer) := by
  unfold write
  rw [if_pos short]

theorem length_front {buffer : List UInt8} (room : fieldSize ≤ buffer.length) :
    (buffer.take fieldSize).length = fieldSize := by
  rw [List.length_take, Nat.min_eq_left room]

theorem read_eq_ok_iff {buffer : List UInt8} {id : Ident} :
    read buffer = .ok id ↔ fieldSize ≤ buffer.length ∧ buffer.take fieldSize = id.field := by
  by_cases room : fieldSize ≤ buffer.length
  · rw [read_of_room room, Except.ok.injEq, Ident.ofField_eq_iff (length_front room)]
    exact (and_iff_right room).symm
  · rw [read_of_short (Nat.lt_of_not_le room)]
    exact iff_of_false nofun fun found => room found.1

theorem accepts_iff_read {buffer : List UInt8} {expected : Ident} :
    accepts buffer expected = true ↔ read buffer = .ok expected := by
  unfold accepts
  cases read buffer with
  | ok id => simp
  | error e => simp

/-- A buffer is accepted exactly if it begins with the field of the expected identifier. -/
theorem accepts_iff (buffer : List UInt8) (expected : Ident) :
    accepts buffer expected = true ↔
      fieldSize ≤ buffer.length ∧ buffer.take fieldSize = expected.field :=
  accepts_iff_read.trans read_eq_ok_iff

/-- A buffer is accepted exactly if its first four bytes have the digits of the identifier. -/
theorem accepts_iff_digits (buffer : List UInt8) (expected : Ident) :
    accepts buffer expected = true ↔
      fieldSize ≤ buffer.length ∧ Hex.ofBytes (buffer.take fieldSize) = expected.digits := by
  rw [accepts_iff]
  refine and_congr_right fun room => ?_
  have whole := length_front room
  rw [← Ident.digits_ofField whole, Ident.digits_inj, Ident.ofField_eq_iff whole]

/-- What follows a written field, and what it was written over, does not change the answer; only
a cut inside the field does. -/
theorem accepts_written_iff (id expected : Ident) (rest : List UInt8) (k : Nat) :
    accepts ((id.field ++ rest).take k) expected = true ↔ fieldSize ≤ k ∧ id = expected := by
  have size : id.field.length = fieldSize := Ident.length_field id
  rw [accepts_iff, List.length_take, List.length_append, size, List.take_take]
  constructor
  · rintro ⟨room, same⟩
    have uncut : fieldSize ≤ k := by omega
    rw [Nat.min_eq_left uncut, ← size, List.take_left] at same
    refine ⟨uncut, ?_⟩
    rw [← Ident.ofField_field id, same, Ident.ofField_field]
  · rintro ⟨uncut, rfl⟩
    refine ⟨by omega, ?_⟩
    rw [Nat.min_eq_left uncut, ← size, List.take_left]

/-- Text and field are one encoding. The identifier at the front of a buffer is written as the
hexadecimal digits of the first four bytes in order, and is read from those digits in either
case; writing an identifier that was read from a text puts the bytes with the digits of the text
at the front, and leaves the others; and a buffer is accepted exactly if it has four bytes whose
digits are those of the expected identifier. -/
theorem text_and_field_agree :
    (∀ buffer : List UInt8, 4 ≤ buffer.length → ∃ id, read buffer = .ok id ∧
      id.text = "0x" ++ String.ofList (Hex.ofBytes (buffer.take 4)) ∧
      ∀ cs : List Char, cs.map Char.toLower = Hex.ofBytes (buffer.take 4) →
        Ident.ofText ("0x" ++ String.ofList cs) = .ok id) ∧
    (∀ (s : String) (id : Ident) (buffer : List UInt8), Ident.ofText s = .ok id →
      4 ≤ buffer.length → ∃ front : List UInt8, front.length = 4 ∧
        Hex.ofBytes front = ((s.toList.drop 2).take 8).map Char.toLower ∧
        write buffer id = .ok { count := 4, buffer := front ++ buffer.drop 4 }) ∧
    (∀ (buffer : List UInt8) (id : Ident), (check buffer id).value = true ↔
      4 ≤ buffer.length ∧ Hex.ofBytes (buffer.take 4) = id.text.toList.drop 2) := by
  refine ⟨?_, ?_, ?_⟩
  · intro buffer room
    have whole := length_front room
    refine ⟨_, read_of_room room, Ident.text_ofField whole, ?_⟩
    intro cs written
    exact Ident.ofText_of_toLower_eq whole written
  · intro s id buffer read room
    exact ⟨id.field, Ident.length_field id, Ident.ofBytes_field_of_ofText read,
      write_of_room id room⟩
  · intro buffer id
    rw [value_check, accepts_iff_digits, Ident.toList_text]
    exact Iff.rfl

/-- A field with a leading zero digit in front of a fifth byte, and its text in mixed case. -/
theorem text_and_field_of_five_bytes :
    4 ≤ [0x0c, 0x22, 0x9d, 0x94, 0xff].length ∧
    Ident.ofText "0x0C229d94" = .ok ⟨0x0c229d94⟩ ∧
    (∃ id, read [0x0c, 0x22, 0x9d, 0x94, 0xff] = .ok id ∧ id.text = "0x0c229d94" ∧
      Ident.ofText "0x0C229d94" = .ok id) ∧
    ∃ front : List UInt8, front.length = 4 ∧ Hex.ofBytes front = "0c229d94".toList ∧
      write [0xff, 0xff, 0xff, 0xff, 0x01] ⟨0x0c229d94⟩ =
        .ok { count := 4, buffer := front ++ [0x01] } := by
  have parsed : Ident.ofText "0x0C229d94" = .ok ⟨0x0c229d94⟩ := by decide +kernel
  refine ⟨by decide, parsed, ?_, ?_⟩
  · obtain ⟨id, found, shown, reads⟩ :=
      text_and_field_agree.1 [0x0c, 0x22, 0x9d, 0x94, 0xff] (by decide)
    exact ⟨id, found, shown, reads "0C229d94".toList (by decide)⟩
  · exact text_and_field_agree.2.1 "0x0C229d94" ⟨0x0c229d94⟩ [0xff, 0xff, 0xff, 0xff, 0x01] parsed
      (by decide)

end ProtocolIdent.Header
