import ProtocolIdent.Digits

/-!
# Protocol identifiers

An identifier is a number of 32 bits. As the leading field of a packet header it takes four
bytes, most significant first.
-/
namespace ProtocolIdent

structure Ident where
  value : UInt32
  deriving DecidableEq, Repr

namespace Ident

def fieldSize : Nat := 4

/-- The four bytes of the identifier, most significant first. -/
def field (id : Ident) : List UInt8 :=
  (Digits.fixed 256 fieldSize id.value.toNat).map UInt8.ofNat

/-- The identifier that bytes denote, most significant first. -/
def ofField (bytes : List UInt8) : Ident :=
  ⟨UInt32.ofNat (Digits.value 256 (bytes.map UInt8.toNat))⟩

@[simp] theorem length_field (id : Ident) : id.field.length = fieldSize := by
  simp [field]

/-- No digit is cut when it becomes a byte. -/
theorem map_toNat_field (id : Ident) :
    id.field.map UInt8.toNat = Digits.fixed 256 fieldSize id.value.toNat := by
  rw [field, List.map_map]
  refine (List.map_congr_left fun d hd => ?_).trans (List.map_id _)
  have small := Digits.mem_fixed_lt (by decide) hd
  simp [Nat.mod_eq_of_lt small]

end Ident

end ProtocolIdent
