import ProtocolIdent.Proofs.Header
import ProtocolIdent.Proofs.Session.Window

/-!
# The header field as a view of a buffer

A buffer with room for the field holds one identifier at its front. Writing exchanges it and
nothing else: what was written is read, writing what was read changes nothing, and of two writes
the later one counts. Without room a buffer stays as it is, and reading and writing fail with one
error (`field_is_lawful_view`).
-/
namespace ProtocolIdent

namespace Header

open Ident (fieldSize)

/-! ## When reading and writing succeed -/

theorem write_eq_ok_iff {buffer : List UInt8} {id : Ident} {w : Written} :
    write buffer id = .ok w ↔ fieldSize ≤ buffer.length ∧
      w = { count := fieldSize, buffer := id.field ++ buffer.drop fieldSize } := by
  by_cases room : fieldSize ≤ buffer.length
  · rw [write_of_room id room, Except.ok.injEq, eq_comm]
    exact (and_iff_right room).symm
  · rw [write_of_short id (Nat.lt_of_not_le room)]
    exact iff_of_false nofun fun wrote => room wrote.1

theorem exists_read_iff {buffer : List UInt8} :
    (∃ id, read buffer = .ok id) ↔ fieldSize ≤ buffer.length := by
  constructor
  · rintro ⟨id, found⟩
    exact (read_eq_ok_iff.mp found).1
  · intro room
    exact ⟨_, read_of_room room⟩

theorem exists_write_iff {buffer : List UInt8} {id : Ident} :
    (∃ w, write buffer id = .ok w) ↔ fieldSize ≤ buffer.length := by
  constructor
  · rintro ⟨w, wrote⟩
    exact (write_eq_ok_iff.mp wrote).1
  · intro room
    exact ⟨_, write_of_room id room⟩

/-! ## Reading after writing, writing after reading -/

/-- Nothing behind the field is looked at. -/
theorem read_append {buffer : List UInt8} {id : Ident} (found : read buffer = .ok id)
    (rest : List UInt8) : read (buffer ++ rest) = .ok id := by
  obtain ⟨room, front⟩ := read_eq_ok_iff.mp found
  refine read_eq_ok_iff.mpr ⟨?_, ?_⟩
  · rw [List.length_append]
    exact Nat.le_add_right_of_le room
  · rw [List.take_append_of_le_length room, front]

theorem read_field (id : Ident) : read id.field = .ok id := by
  have size : id.field.length = fieldSize := Ident.length_field id
  exact read_eq_ok_iff.mpr ⟨Nat.le_of_eq size.symm, List.take_of_length_le (Nat.le_of_eq size)⟩

variable {buffer : List UInt8} {id : Ident} {w : Written}

theorem read_written (wrote : write buffer id = .ok w) : read w.buffer = .ok id := by
  obtain ⟨-, rfl⟩ := write_eq_ok_iff.mp wrote
  exact read_append (read_field id) _

theorem length_written (wrote : write buffer id = .ok w) :
    w.buffer.length = buffer.length := by
  obtain ⟨room, rfl⟩ := write_eq_ok_iff.mp wrote
  rw [List.length_append, Ident.length_field, List.length_drop]
  omega

theorem drop_written (wrote : write buffer id = .ok w) :
    w.buffer.drop fieldSize = buffer.drop fieldSize := by
  obtain ⟨-, rfl⟩ := write_eq_ok_iff.mp wrote
  exact List.drop_left' (Ident.length_field id)

/-- Writing the identifier that stands at the front changes nothing. -/
theorem write_of_read (found : read buffer = .ok id) :
    write buffer id = .ok { count := fieldSize, buffer } := by
  obtain ⟨room, front⟩ := read_eq_ok_iff.mp found
  rw [write_of_room id room, ← front, List.take_append_drop]

/-- A later write does not depend on what an earlier one left at the front. -/
theorem write_of_written (wrote : write buffer id = .ok w) (later : Ident) :
    write w.buffer later = write buffer later := by
  have room := exists_write_iff.mp ⟨w, wrote⟩
  rw [write_of_room later room, write_of_room later (by rwa [length_written wrote]),
    drop_written wrote]

/-! ## Writing in place -/

/-- The buffer after a write in place, be it one that succeeds or one that fails. -/
def overwrite (buffer : List UInt8) (id : Ident) : List UInt8 :=
  match write buffer id with
  | .ok w => w.buffer
  | .error _ => buffer

theorem overwrite_of_ok (wrote : write buffer id = .ok w) : overwrite buffer id = w.buffer := by
  rw [overwrite, wrote]

theorem overwrite_of_short (id : Ident) (short : buffer.length < fieldSize) :
    overwrite buffer id = buffer := by
  rw [overwrite, write_of_short id short]

/-- Of two writes, whether they fit or not, the later one counts. -/
theorem overwrite_overwrite (first later : Ident) :
    overwrite (overwrite buffer first) later = overwrite buffer later := by
  by_cases room : fieldSize ≤ buffer.length
  · obtain ⟨w, wrote⟩ := exists_write_iff.mpr room
    obtain ⟨v, last⟩ := exists_write_iff.mpr room
    rw [overwrite_of_ok wrote, overwrite_of_ok last]
    exact overwrite_of_ok ((write_of_written wrote later).trans last)
  · rw [overwrite_of_short first (Nat.lt_of_not_le room)]

end Header

theorem Window.replace_slice (w : Window) (buffer : List UInt8) :
    w.replace buffer (w.slice buffer) = buffer := by
  have uncut := w.drop_slice_append (Nat.zero_le (w.slice buffer).length)
  rw [List.drop_zero, Nat.add_zero] at uncut
  rw [replace, List.append_assoc, uncut, List.take_append_drop]

/-- In a session a write acts in place on the part of the buffer inside its window. -/
theorem Session.after_put (s : Session) (w : Window) (id : Ident) :
    (s.put w id).after =
      { s with buffer := w.replace s.buffer (Header.overwrite (w.slice s.buffer) id) } := by
  rw [put, Header.overwrite]
  cases Header.write (w.slice s.buffer) id with
  | ok r => rfl
  | error e => exact congrArg (Session.mk · s.register) (w.replace_slice s.buffer).symm

namespace Header

/-- The field is a lawful view of the first four bytes. Reading and writing succeed exactly if there
are four bytes, and then what was written is read and all that stands behind stays; writing what
was read changes nothing; of two writes the later one counts. On a shorter buffer reading and
writing fail with one error, and the buffer stays. What is read does not depend on what follows. In
a session all this holds of the part of the buffer inside a window. -/
theorem field_is_lawful_view (buffer : List UInt8) (x y : Ident) :
    ((∃ id, read buffer = .ok id) ↔ 4 ≤ buffer.length) ∧
    ((∃ w, write buffer x = .ok w) ↔ 4 ≤ buffer.length) ∧
    (∀ w, write buffer x = .ok w →
      w.count = 4 ∧ w.buffer.length = buffer.length ∧ w.buffer.drop 4 = buffer.drop 4 ∧
        read w.buffer = .ok x ∧ write w.buffer y = write buffer y) ∧
    (∀ id, read buffer = .ok id → write buffer id = .ok { count := 4, buffer }) ∧
    overwrite (overwrite buffer x) y = overwrite buffer y ∧
    (buffer.length < 4 → read buffer = .error (.shortBuffer 4 buffer.length) ∧
      write buffer x = .error (.shortBuffer 4 buffer.length) ∧ overwrite buffer x = buffer) ∧
    (∀ id rest, read buffer = .ok id → read (buffer ++ rest) = .ok id) ∧
    (∀ (s : Session) (w : Window), w.slice s.buffer = buffer →
      (s.step (.write w (some x))).value.after =
        { s with buffer := w.replace s.buffer (overwrite buffer x) }) := by
  refine ⟨exists_read_iff, exists_write_iff, ?_, ?_, overwrite_overwrite x y, ?_, ?_, ?_⟩
  · intro w wrote
    refine ⟨?_, length_written wrote, drop_written wrote, read_written wrote,
      write_of_written wrote y⟩
    rw [(write_eq_ok_iff.mp wrote).2]
    rfl
  · intro id found
    exact write_of_read found
  · intro short
    exact ⟨read_of_short short, write_of_short x short, overwrite_of_short x short⟩
  · intro id rest found
    exact read_append found rest
  · rintro s w rfl
    exact s.after_put w x

/-- A field before two more bytes, and a buffer of three bytes as a window of a session. -/
theorem view_of_six_bytes :
    (∃ w, write [0xde, 0xad, 0xd0, 0x0d, 0xff, 0x01] ⟨0x0c229d94⟩ = .ok w ∧
      w.buffer.drop 4 = [0xff, 0x01] ∧ read w.buffer = .ok ⟨0x0c229d94⟩) ∧
    write [0xde, 0xad, 0xd0, 0x0d, 0xff, 0x01] ⟨0xdeadd00d⟩ =
      .ok { count := 4, buffer := [0xde, 0xad, 0xd0, 0x0d, 0xff, 0x01] } ∧
    read [0xde, 0xad, 0xd0] = .error (.shortBuffer 4 3) ∧
    (Session.step { buffer := [1, 2, 3, 4, 5] } (.write { start := 2 } (some ⟨0⟩))).value.after =
      { buffer := [1, 2, 3, 4, 5] } := by
  obtain ⟨-, room, wrote, same, -⟩ :=
    field_is_lawful_view [0xde, 0xad, 0xd0, 0x0d, 0xff, 0x01] ⟨0x0c229d94⟩ ⟨0⟩
  obtain ⟨-, -, -, -, -, short, -⟩ := field_is_lawful_view [0xde, 0xad, 0xd0] ⟨0⟩ ⟨0⟩
  obtain ⟨-, -, -, -, -, stays, -, session⟩ := field_is_lawful_view [3, 4, 5] ⟨0⟩ ⟨0⟩
  refine ⟨?_, same _ (by decide +kernel), (short (by decide)).1, ?_⟩
  · obtain ⟨w, written⟩ := room.mpr (by decide)
    obtain ⟨-, -, behind, reads, -⟩ := wrote w written
    exact ⟨w, written, behind, reads⟩
  · rw [session { buffer := [1, 2, 3, 4, 5] } { start := 2 } rfl, (stays (by decide)).2.2]
    rfl

end Header

end ProtocolIdent
