import ProtocolIdent.Digits

/-!
# Hexadecimal digits

Digits are written in lower case (`Nat.digitChar`) and read in either case.
-/
namespace ProtocolIdent.Hex

def value? (c : Char) : Option Nat :=
  if '0' ≤ c ∧ c ≤ '9' then some (c.toNat - 48)
  else if 'a' ≤ c ∧ c ≤ 'f' then some (c.toNat - 87)
  else if 'A' ≤ c ∧ c ≤ 'F' then some (c.toNat - 55)
  else none

/-- Two lower-case digits for each byte, in order. -/
def ofBytes (bytes : List UInt8) : List Char :=
  bytes.flatMap fun b => (Digits.fixed 16 2 b.toNat).map Nat.digitChar

/-- The digits of `n` without leading zeros, `0` for zero. -/
def minimal (n : Nat) : List Char :=
  Nat.toDigits 16 n

end ProtocolIdent.Hex
