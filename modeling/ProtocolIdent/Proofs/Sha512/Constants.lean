import ProtocolIdent.Proofs.Sha512.Words

/-!
# The tables of SHA-512

The listed constants are the bits of the roots that the standard asks for
(`map_roundConstants`, `registers_initial`). Each listed word is completed to a whole number by what
stands before the point of its root, and that number is seen to be the greatest with a small
enough power.
-/
namespace ProtocolIdent.Sha512

theorem prime_iff_of_lt {n : Nat} (bound : n < 410) :
    n.Prime ↔ 2 ≤ n ∧ ∀ m < 21, 2 ≤ m → m < n → n % m ≠ 0 := by
  constructor
  · intro prime
    refine ⟨prime.two_le, fun m _ low high divides => ?_⟩
    rcases (Nat.dvd_prime prime).mp (Nat.dvd_of_mod_eq_zero divides) with one | whole
    · omega
    · omega
  · rintro ⟨low, undivided⟩
    by_contra composite
    have square := Nat.minFac_sq_le_self (Nat.zero_lt_of_lt low) composite
    have least := (Nat.minFac_prime (by omega : n ≠ 1)).two_le
    have small : n.minFac < 21 := by
      by_contra large
      have : 21 * 21 ≤ n.minFac * n.minFac := Nat.mul_le_mul (by omega) (by omega)
      rw [Nat.pow_two] at square
      omega
    have proper : n.minFac < n := by
      rw [Nat.pow_two] at square
      have : 2 * n.minFac ≤ n.minFac * n.minFac := Nat.mul_le_mul_right _ least
      omega
    exact undivided n.minFac small least proper (Nat.mod_eq_zero_of_dvd n.minFac_dvd)

theorem primes_eq : Standard.primes =
    [2, 3, 5, 7, 11, 13, 17, 19, 23, 29, 31, 37, 41, 43, 47, 53, 59, 61, 67, 71, 73, 79, 83, 89,
     97, 101, 103, 107, 109, 113, 127, 131, 137, 139, 149, 151, 157, 163, 167, 173, 179, 181, 191,
     193, 197, 199, 211, 223, 227, 229, 233, 239, 241, 251, 257, 263, 269, 271, 277, 281, 283,
     293, 307, 311, 313, 317, 331, 337, 347, 349, 353, 359, 367, 373, 379, 383, 389, 397, 401,
     409] := by
  have trial : Standard.primes = (List.range 410).filter
      fun n => 2 ≤ n ∧ ∀ m < 21, 2 ≤ m → m < n → n % m ≠ 0 := by
    apply List.filter_congr
    intro n member
    exact decide_eq_decide.mpr (prime_iff_of_lt (List.mem_range.mp member))
  rw [trial]
  decide +kernel

/-- A number is the last 64 bits of a moved root if no greater number has a small enough power. -/
theorem rootFraction_eq {r n x : Nat} (root : r ≠ 0) (low : x ^ r ≤ n * 2 ^ (64 * r))
    (high : n * 2 ^ (64 * r) < (x + 1) ^ r) : Standard.rootFraction r n = BitVec.ofNat 64 x := by
  have greatest : Nat.findGreatest (fun y => y ^ r ≤ n * 2 ^ (64 * r)) (n * 2 ^ (64 * r)) = x := by
    apply Nat.findGreatest_eq_iff.mpr
    refine ⟨Nat.le_trans (Nat.le_self_pow root x) low, fun _ => low, ?_⟩
    intro y beyond _ fits
    have step : (x + 1) ^ r ≤ y ^ r := Nat.pow_le_pow_left beyond r
    omega
  rw [Standard.rootFraction, greatest]

/-- How many positive numbers below 20 have a power that is at most `n`. -/
def wholePart (r n : Nat) : Nat :=
  (List.range 20).countP fun x => (x + 1) ^ r ≤ n

/-- The word is what stands behind the point of the `r`-th root of `n`, cut after 64 bits. -/
structure IsFraction (r n : Nat) (k : UInt64) : Prop where
  low : (wholePart r n * 2 ^ 64 + k.toNat) ^ r ≤ n * 2 ^ (64 * r)
  high : n * 2 ^ (64 * r) < (wholePart r n * 2 ^ 64 + k.toNat + 1) ^ r

instance (r n : Nat) (k : UInt64) : Decidable (IsFraction r n k) :=
  decidable_of_iff (_ ∧ _) ⟨fun h => ⟨h.1, h.2⟩, fun h => ⟨h.low, h.high⟩⟩

theorem rootFraction_of_isFraction {r n : Nat} {k : UInt64} (root : r ≠ 0)
    (fraction : IsFraction r n k) : Standard.rootFraction r n = k.toBitVec := by
  rw [rootFraction_eq root fraction.low fraction.high]
  apply BitVec.eq_of_toNat_eq
  have := k.toNat_lt
  rw [BitVec.toNat_ofNat, UInt64.toNat_toBitVec]
  omega

theorem map_roundConstants :
    roundConstants.map UInt64.toBitVec = (List.range 80).map Standard.constant := by
  have table : ∀ t < 80, IsFraction 3 (Standard.primes.getD t 0) (roundConstants.getD t 0) := by
    rw [primes_eq]
    decide +kernel
  apply List.ext_getElem
  · rw [List.length_map, List.length_map, List.length_range]
    rfl
  · intro t inside listed
    rw [List.length_map, List.length_range] at listed
    have entry := rootFraction_of_isFraction (by decide) (table t listed)
    rw [List.getElem_map, List.getElem_map, List.getElem_range, Standard.constant, entry,
      List.getElem_eq_getD 0]

theorem registers_initial : initial.registers = Standard.initial := by
  have root : 2 ≠ 0 := by decide
  rw [Standard.initial,
    rootFraction_of_isFraction root (by decide : IsFraction 2 2 initial.a),
    rootFraction_of_isFraction root (by decide : IsFraction 2 3 initial.b),
    rootFraction_of_isFraction root (by decide : IsFraction 2 5 initial.c),
    rootFraction_of_isFraction root (by decide : IsFraction 2 7 initial.d),
    rootFraction_of_isFraction root (by decide : IsFraction 2 11 initial.e),
    rootFraction_of_isFraction root (by decide : IsFraction 2 13 initial.f),
    rootFraction_of_isFraction root (by decide : IsFraction 2 17 initial.g),
    rootFraction_of_isFraction root (by decide : IsFraction 2 19 initial.h),
    State.registers]

end ProtocolIdent.Sha512
