import ProtocolIdent.Proofs.Sha512.Standard
import ProtocolIdent.Sha512

/-!
# Operations on the words of SHA-512

A machine word is read as the bit vector that it holds. A rotation put together from two shifts is
the rotation of the bit vector, so each function of the rounds, and the round itself
(`registers_round`), is the function that the standard gives.
-/
namespace ProtocolIdent.Sha512

theorem toBitVec_rotateRight {x n : UInt64} (positive : 0 < n) (within : n < 64) :
    (rotateRight x n).toBitVec = x.toBitVec.rotateRight n.toNat := by
  have low : 0 < n.toNat := positive
  have high : n.toNat < 64 := within
  have back : (64 - n).toNat = 64 - n.toNat :=
    UInt64.toNat_sub_of_le 64 n (UInt64.le_iff_toNat_le.mpr (Nat.le_of_lt high))
  have right : n.toNat % 64 = n.toNat := Nat.mod_eq_of_lt high
  have left : (64 - n.toNat) % 64 = 64 - n.toNat := Nat.mod_eq_of_lt (by omega)
  apply BitVec.eq_of_toNat_eq
  rw [BitVec.toNat_rotateRight, UInt64.toNat_toBitVec, rotateRight, UInt64.toNat_or,
    UInt64.toNat_shiftRight, UInt64.toNat_shiftLeft, back, right, left, UInt64.toNat_toBitVec]

@[simp] theorem toBitVec_choose (x y z : UInt64) :
    (choose x y z).toBitVec = Standard.ch x.toBitVec y.toBitVec z.toBitVec := by
  simp [choose, Standard.ch]

@[simp] theorem toBitVec_majority (x y z : UInt64) :
    (majority x y z).toBitVec = Standard.maj x.toBitVec y.toBitVec z.toBitVec := by
  simp [majority, Standard.maj]

@[simp] theorem toBitVec_bigSigma0 (x : UInt64) :
    (bigSigma0 x).toBitVec = Standard.bigSigma0 x.toBitVec := by
  simp [bigSigma0, Standard.bigSigma0, toBitVec_rotateRight]

@[simp] theorem toBitVec_bigSigma1 (x : UInt64) :
    (bigSigma1 x).toBitVec = Standard.bigSigma1 x.toBitVec := by
  simp [bigSigma1, Standard.bigSigma1, toBitVec_rotateRight]

@[simp] theorem toBitVec_smallSigma0 (x : UInt64) :
    (smallSigma0 x).toBitVec = Standard.smallSigma0 x.toBitVec := by
  simp [smallSigma0, Standard.smallSigma0, toBitVec_rotateRight]

@[simp] theorem toBitVec_smallSigma1 (x : UInt64) :
    (smallSigma1 x).toBitVec = Standard.smallSigma1 x.toBitVec := by
  simp [smallSigma1, Standard.smallSigma1, toBitVec_rotateRight]

/-- The registers that the working words stand for. -/
def State.registers (s : State) : Standard.Registers where
  a := s.a.toBitVec
  b := s.b.toBitVec
  c := s.c.toBitVec
  d := s.d.toBitVec
  e := s.e.toBitVec
  f := s.f.toBitVec
  g := s.g.toBitVec
  h := s.h.toBitVec

theorem registers_round (s : State) (k x : UInt64) :
    (round s k x).registers = Standard.round s.registers k.toBitVec x.toBitVec := by
  simp [round, Standard.round, State.registers]

end ProtocolIdent.Sha512
