import ProtocolIdent.Proofs.Header
import ProtocolIdent.Proofs.Ident.Derive

/-!
# Packets between two versions

A packet that one version writes passes the gate of another exactly if the header was not cut and
the digests of the two version strings begin with the same four bytes; the texts of the two
identifiers tell this as well (`packet_passes_iff`).
-/
namespace ProtocolIdent

namespace Ident

theorem field_ofBytes (bytes : List UInt8) :
    (ofBytes bytes).field = (Sha512.digest bytes).take fieldSize := by
  rw [ofBytes, ofDigest, field_ofField (length_take_digest bytes)]

theorem ofBytes_eq_iff {xs ys : List UInt8} :
    ofBytes xs = ofBytes ys ↔
      (Sha512.digest xs).take fieldSize = (Sha512.digest ys).take fieldSize := by
  rw [← field_ofBytes, ← field_ofBytes]
  constructor
  · intro same
    rw [same]
  · intro same
    rw [← ofField_field (ofBytes xs), same, ofField_field]

end Ident

namespace Header

open Ident (fieldSize)

/-- The packet of version `v`, cut after `k` bytes, passes the gate of version `w` exactly if its
header is whole and the digests of the two begin with the same four bytes, whatever stood in the
buffer and whatever follows it; and the digests do so exactly if the identifiers have one text. -/
theorem packet_passes_iff (v w : String) (buffer payload : List UInt8) (k : Nat)
    (room : 4 ≤ buffer.length) :
    ∃ written, write buffer (Ident.derive v).value = .ok written ∧
      ((check ((written.buffer ++ payload).take k) (Ident.derive w).value).value = true ↔
        4 ≤ k ∧ (Sha512.digest v.toUTF8.data.toList).take 4 =
          (Sha512.digest w.toUTF8.data.toList).take 4) ∧
      ((Sha512.digest v.toUTF8.data.toList).take 4 =
          (Sha512.digest w.toUTF8.data.toList).take 4 ↔
        (Ident.textOf v).value = (Ident.textOf w).value) := by
  have agree : Ident.ofVersion v = Ident.ofVersion w ↔
      (Sha512.digest v.toUTF8.data.toList).take 4 =
        (Sha512.digest w.toUTF8.data.toList).take 4 := by
    rw [Ident.ofVersion_eq_ofBytes, Ident.ofVersion_eq_ofBytes]
    exact Ident.ofBytes_eq_iff
  refine ⟨_, write_of_room _ room, ?_, ?_⟩
  · rw [value_check, List.append_assoc, accepts_written_iff, ← agree]
    exact Iff.rfl
  · rw [← agree, Ident.value_textOf, Ident.value_textOf, Ident.text_inj]

/-- A whole packet of one version over a used buffer is turned away at the gate of another. -/
theorem packet_of_another_version :
    4 ≤ ([0xff, 0xff, 0xff, 0xff, 0x01] : List UInt8).length ∧
    ∃ written, write [0xff, 0xff, 0xff, 0xff, 0x01] (Ident.derive "Testing v0.1").value =
        .ok written ∧
      (check ((written.buffer ++ [0x02]).take 6) (Ident.derive "Testing v0.2").value).value =
        false ∧
      (Ident.textOf "Testing v0.1").value ≠ (Ident.textOf "Testing v0.2").value := by
  have room : 4 ≤ ([0xff, 0xff, 0xff, 0xff, 0x01] : List UInt8).length := by decide
  have differ : (Sha512.digest "Testing v0.1".toUTF8.data.toList).take 4 ≠
      (Sha512.digest "Testing v0.2".toUTF8.data.toList).take 4 := by decide +kernel
  obtain ⟨written, wrote, passes, texts⟩ :=
    packet_passes_iff "Testing v0.1" "Testing v0.2" [0xff, 0xff, 0xff, 0xff, 0x01] [0x02] 6 room
  refine ⟨room, written, wrote, ?_, ?_⟩
  · rw [← Bool.not_eq_true, passes]
    exact fun agree => differ agree.2
  · exact fun same => differ (texts.mpr same)

end Header

end ProtocolIdent
