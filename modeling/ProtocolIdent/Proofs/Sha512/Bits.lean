import ProtocolIdent.Proofs.Digits
import ProtocolIdent.Proofs.Sha512.Standard
import ProtocolIdent.Sha512

/-!
# Messages of SHA-512 as bits

The bits of bytes are the binary digits of the number that the bytes denote, so a word read from
eight bytes is the word of the standard at that place (`word_bits`), a word written as eight bytes
is written as its 64 bits (`bits_bytesOfWord`), and padding by bytes is padding by bits
(`bits_pad`).
-/
namespace ProtocolIdent.Sha512

open Standard (bits)

theorem bits_eq_flatMap (bytes : List UInt8) :
    bits bytes = (bytes.map UInt8.toNat).flatMap (Digits.fixed 2 8) := by
  rw [bits, List.flatMap_map]

theorem bits_append (xs ys : List UInt8) : bits (xs ++ ys) = bits xs ++ bits ys :=
  List.flatMap_append

@[simp] theorem length_bits (bytes : List UInt8) : (bits bytes).length = bytes.length * 8 := by
  rw [bits_eq_flatMap, Digits.length_flatMap_fixed, List.length_map]

theorem take_bits (k : Nat) (bytes : List UInt8) :
    (bits bytes).take (k * 8) = bits (bytes.take k) := by
  rw [bits_eq_flatMap, bits_eq_flatMap, Digits.take_flatMap_fixed, List.map_take]

theorem drop_bits (k : Nat) (bytes : List UInt8) :
    (bits bytes).drop (k * 8) = bits (bytes.drop k) := by
  rw [bits_eq_flatMap, bits_eq_flatMap, Digits.drop_flatMap_fixed, List.map_drop]

/-- The bits and the bytes denote one number. -/
theorem value_bits (bytes : List UInt8) :
    Digits.value 2 (bits bytes) = Digits.value 256 (bytes.map UInt8.toNat) := by
  have base : 2 ^ 8 = 256 := by decide
  have bound := Digits.value_lt (Digits.byte_lt bytes)
  rw [bits_eq_flatMap, Digits.regroup base (Digits.byte_lt bytes), Digits.value_fixed]
  apply Nat.mod_eq_of_lt
  rwa [Nat.mul_comm, Nat.pow_mul, base]

/-! ## Words -/

theorem toNat_shift_or (x : UInt64) (b : UInt8) :
    (x <<< 8 ||| b.toUInt64).toNat = (x.toNat * 256 + b.toNat) % 2 ^ 64 := by
  have small : b.toNat < 2 ^ 8 := b.toNat_lt
  have kept : x.toNat <<< 8 % 2 ^ 64 = (x.toNat % 2 ^ 56) <<< 8 := by
    rw [Nat.shiftLeft_eq, Nat.shiftLeft_eq]
    omega
  rw [UInt64.toNat_or, UInt64.toNat_shiftLeft, UInt8.toNat_toUInt64]
  change x.toNat <<< 8 % 2 ^ 64 ||| b.toNat = _
  rw [kept, ← Nat.shiftLeft_add_eq_or_of_lt small, Nat.shiftLeft_eq]
  omega

theorem toNat_wordOfBytes (bytes : List UInt8) :
    (wordOfBytes bytes).toNat = Digits.value 256 (bytes.map UInt8.toNat) % 2 ^ 64 := by
  induction bytes using List.reverseRecOn with
  | nil => rfl
  | append_singleton bytes b ih =>
    have last : wordOfBytes (bytes ++ [b]) = wordOfBytes bytes <<< 8 ||| b.toUInt64 := by
      simp [wordOfBytes]
    rw [last, toNat_shift_or, ih, List.map_append, List.map_singleton, Digits.value_concat]
    omega

/-- Word `j` of the bits is read from the eight bytes at its place. -/
theorem word_bits (bytes : List UInt8) (j : Nat) :
    Standard.word (bits bytes) j = (wordOfBytes ((bytes.drop (8 * j)).take 8)).toBitVec := by
  have place : 64 * j = 8 * j * 8 := by omega
  rw [Standard.word, place, drop_bits, take_bits 8, value_bits]
  apply BitVec.eq_of_toNat_eq
  rw [BitVec.toNat_ofNat]
  exact (toNat_wordOfBytes _).symm

theorem map_toNat_bytesOfWord (x : UInt64) :
    (bytesOfWord x).map UInt8.toNat = Digits.fixed 256 8 x.toNat := by
  simp [bytesOfWord, Digits.fixed, Nat.shiftRight_eq_div_pow, Nat.div_div_eq_div_mul]

theorem bits_bytesOfWord (x : UInt64) : bits (bytesOfWord x) = Digits.fixed 2 64 x.toNat := by
  rw [bits_eq_flatMap, map_toNat_bytesOfWord, Digits.flatMap_fixed (by decide : 2 ^ 8 = 256)]

/-! ## Padding -/

/-- The zeros of the standard are the last seven bits of the end mark and the zero bytes. -/
theorem fill_eq (length : Nat) : Standard.fill (length * 8) = 7 + 8 * zeroCount length := by
  unfold Standard.fill
  rw [Nat.find_eq_iff]
  unfold zeroCount
  constructor
  · omega
  · intro k before room
    omega

theorem bits_zeros (n : Nat) : bits (List.replicate n 0) = List.replicate (8 * n) 0 := by
  induction n with
  | zero => rfl
  | succ n ih =>
    have first : bits [0] = List.replicate 8 0 := by decide
    rw [List.replicate_succ, ← List.singleton_append, bits_append, first, ih,
      List.replicate_append_replicate, Nat.mul_succ, Nat.add_comm]

theorem bits_mark (n : Nat) :
    bits (0x80 :: List.replicate n 0) = 1 :: List.replicate (7 + 8 * n) 0 := by
  have mark : bits [0x80] = 1 :: List.replicate 7 0 := by decide
  rw [← List.singleton_append, bits_append, mark, bits_zeros, List.cons_append,
    List.replicate_append_replicate]

theorem bits_length (n : Nat) :
    bits (bytesOfWord (UInt64.ofNat (n >>> 64)) ++ bytesOfWord (UInt64.ofNat n)) =
      Digits.fixed 2 128 n := by
  rw [bits_append, bits_bytesOfWord, bits_bytesOfWord, UInt64.toNat_ofNat', UInt64.toNat_ofNat',
    Nat.shiftRight_eq_div_pow, Digits.fixed_mod, Digits.fixed_mod, Digits.fixed_add 2 64 64]

/-- Padding by whole bytes is padding by bits. -/
theorem bits_pad (bytes : List UInt8) : bits (pad bytes) = Standard.pad (bits bytes) := by
  rw [pad, Standard.pad, length_bits, fill_eq, bits_append, bits_append, bits_mark, bits_length,
    Nat.mul_comm bytes.length]

end ProtocolIdent.Sha512
