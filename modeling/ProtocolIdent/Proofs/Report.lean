import ProtocolIdent.Proofs.Ident.Derive
import ProtocolIdent.Report

/-!
# The report, as far as the sink takes it

Writing pieces one after the other has the effect of offering their bytes at once: the sink takes
as many of them as it has room for, in order, and the write succeeds exactly if it has room for
all (`writePieces_eq`). So of a report, whatever its pieces, the sink holds the front
(`value_write`), and a sink without a limit holds the whole of it.
-/
namespace ProtocolIdent

namespace Sink

/-- The sink after it took bytes. -/
def took (s : Sink) (bytes : List UInt8) : Sink :=
  { s with taken := s.taken ++ bytes }

@[simp] theorem took_nil (s : Sink) : s.took [] = s := by
  simp [took]

@[simp] theorem took_took (s : Sink) (xs ys : List UInt8) :
    (s.took xs).took ys = s.took (xs ++ ys) := by
  simp [took]

variable (s : Sink)

theorem room_le (n : Nat) : s.room n ≤ n := by
  unfold room
  split
  · exact Nat.min_le_left _ _
  · exact Nat.le_refl _

theorem room_of_unlimited (unlimited : s.capacity = none) (n : Nat) : s.room n = n := by
  rw [room, unlimited]

/-- A sink that has no room for some bytes has none for any. -/
theorem room_of_full {n : Nat} (full : s.room n = 0) (some : 0 < n) (m : Nat) : s.room m = 0 := by
  unfold room at full ⊢
  cases limit : s.capacity with
  | none =>
    rw [limit] at full
    dsimp only at full
    omega
  | some c =>
    rw [limit] at full
    dsimp only at full ⊢
    omega

/-- What it has room for does not depend on whether the bytes come at once or in two parts. -/
theorem room_took {bytes : List UInt8} {n : Nat} (part : s.room n = bytes.length) (m : Nat) :
    s.room (n + m) = bytes.length + (s.took bytes).room (n - bytes.length + m) := by
  unfold room at part ⊢
  rw [took]
  cases limit : s.capacity with
  | none =>
    rw [limit] at part
    dsimp only at part ⊢
    omega
  | some c =>
    rw [limit] at part
    simp only [List.length_append] at part ⊢
    omega

theorem length_take_room (bytes : List UInt8) :
    (bytes.take (s.room bytes.length)).length = s.room bytes.length := by
  rw [List.length_take, Nat.min_eq_left (s.room_le _)]

/-- After it took what it had room for, it has no room for the others. -/
theorem room_took_room (bytes : List UInt8) :
    (s.took (bytes.take (s.room bytes.length))).room (bytes.length - s.room bytes.length) = 0 := by
  have part := s.length_take_room bytes
  have whole := s.room_took part.symm 0
  rw [part, Nat.add_zero, Nat.add_zero] at whole
  omega

theorem writeAll_of_ne_nil {bytes : List UInt8} (some : bytes ≠ []) :
    s.writeAll bytes =
      if s.room bytes.length = 0 then (.error .full, s)
      else (s.took (bytes.take (s.room bytes.length))).writeAll
        (bytes.drop (s.room bytes.length)) := by
  cases bytes with
  | nil => exact absurd rfl some
  | cons b bs =>
    rw [writeAll, offer]
    cases taken : s.room (b :: bs).length with
    | zero => simp
    | succ n => rfl

/-- Offering bytes until none of those left is taken has the sink take what it has room for. The
first offer does it; a second one only finds that there is no room left. -/
theorem writeAll_eq (bytes : List UInt8) :
    s.writeAll bytes =
      (if s.room bytes.length = bytes.length then .ok () else .error .full,
        s.took (bytes.take (s.room bytes.length))) := by
  have most := s.room_le bytes.length
  have full := s.room_took_room bytes
  rw [← List.length_drop] at full
  by_cases empty : bytes = []
  · subst empty
    have nothing : s.room 0 = 0 := Nat.le_zero.mp most
    rw [writeAll, List.length_nil, nothing, if_pos rfl, List.take_nil, took_nil]
  · have some : 0 < bytes.length := List.length_pos_iff.mpr empty
    rw [writeAll_of_ne_nil s empty]
    by_cases nothing : s.room bytes.length = 0
    · rw [if_pos nothing, if_neg (by omega), nothing, List.take_zero, took_nil]
    · rw [if_neg nothing]
      by_cases fits : s.room bytes.length = bytes.length
      · rw [if_pos fits, fits, List.drop_length, writeAll]
      · have left : bytes.drop (s.room bytes.length) ≠ [] := by
          rw [← List.length_pos_iff, List.length_drop]
          omega
        rw [if_neg fits, writeAll_of_ne_nil _ left, if_pos full]

/-- Writing pieces has the same effect as offering their bytes at once. -/
theorem writePieces_eq (pieces : List (List UInt8)) :
    s.writePieces pieces =
      (if s.room pieces.flatten.length = pieces.flatten.length then .ok () else .error .full,
        s.took (pieces.flatten.take (s.room pieces.flatten.length))) := by
  induction pieces generalizing s with
  | nil =>
    have nothing : s.room 0 = 0 := Nat.le_zero.mp (s.room_le 0)
    rw [writePieces, List.flatten_nil, List.length_nil, nothing, if_pos rfl, List.take_nil,
      took_nil]
  | cons piece pieces ih =>
    have part := s.length_take_room piece
    have most := s.room_le piece.length
    have whole := s.room_took part.symm pieces.flatten.length
    rw [part] at whole
    rw [writePieces, writeAll_eq, List.flatten_cons, List.length_append]
    by_cases fits : s.room piece.length = piece.length
    · rw [fits, Nat.sub_self, Nat.zero_add, List.take_length] at whole
      rw [if_pos fits, fits, List.take_length, whole, List.take_length_add_append]
      dsimp only
      rw [ih, took_took]
      simp only [Nat.add_left_cancel_iff]
    · have more : 0 < piece.length - s.room piece.length := by omega
      rw [room_of_full _ (s.room_took_room piece) more, Nat.add_zero] at whole
      rw [if_neg fits, whole, if_neg (by omega), List.take_append_of_le_length most]

theorem flush_took (bytes : List UInt8) :
    (({} : Sink).took bytes).flush = (.ok (), { taken := bytes, flushes := 1 }) := rfl

end Sink

namespace Report

/-- What a sink that takes bytes holds of a report is its front, as far as there is room; it is
flushed only after it took the whole report. -/
theorem value_write (version : String) (s : Sink) :
    (write version s).value =
      let report := Utf8.encode (text version)
      let after := s.took (report.take (s.room report.length))
      if s.room report.length = report.length then after.flush else (.error .full, after) := by
  have bytes : ((pieces version (Ident.ofVersion version).text).map Utf8.encode).flatten =
      Utf8.encode (text version) := (Utf8.encode_join _).symm
  unfold write
  simp only [Logged.value_bind, Ident.value_derive, s.writePieces_eq, bytes]
  by_cases fits : s.room (Utf8.encode (text version)).length = (Utf8.encode (text version)).length
  · simp only [if_pos fits]
    rfl
  · simp only [if_neg fits]
    rfl

/-- A sink without a limit that does not refuse to flush takes the whole report. -/
theorem value_write_unlimited (version : String) :
    (write version {}).value =
      (.ok (), { taken := Utf8.encode (text version), flushes := 1 }) := by
  rw [value_write]
  dsimp only
  rw [Sink.room_of_unlimited _ rfl, if_pos rfl, List.take_length, Sink.flush_took]

/-- The bytes of the report on the bytes of a version string. -/
def ofBytes (version : List UInt8) : List UInt8 :=
  "Version string:   ".toUTF8.data.toList ++ version ++
    "\nProto identifier: 0x".toUTF8.data.toList ++
    (String.ofList ((Hex.ofBytes (Sha512.digest version)).take 8)).toUTF8.data.toList ++
    "\n".toUTF8.data.toList

theorem encode_text (version : String) :
    Utf8.encode (text version) = ofBytes version.toUTF8.data.toList := by
  have lines : text version = "Version string:   " ++ version ++ "\nProto identifier: 0x" ++
      String.ofList ((Hex.ofBytes (Sha512.digest version.toUTF8.data.toList)).take 8) ++ "\n" := by
    rw [text, Ident.ofVersion_eq_ofBytes, Ident.text_ofBytes]
    apply String.toList_inj.mp
    simp [pieces]
  simp only [ofBytes, ← Utf8.encode_eq_toUTF8 version, lines, Utf8.encode_append,
    ← Utf8.encode_eq_toUTF8]

end Report

end ProtocolIdent
