import ProtocolIdent.Proofs.Sha512.Bits
import ProtocolIdent.Proofs.Sha512.Constants

/-!
# The digest is the one of the standard

The schedule is held latest first and read at distances from the front; it is the recurrence of
the standard on the number of the round (`Scheduled`). Blocks are cut from the front of what is
left; block `i` is the one at bit `1024 * i`. So the digest of every byte sequence has the bits
that the standard gives for the bits of the sequence (`bits_digest`).
-/
namespace ProtocolIdent.Sha512

open Standard (bits)

/-! ## Schedule -/

/-- The words of the rounds before `m`, latest first. -/
def Scheduled (block : Nat → Standard.Word) (m : Nat) (ws : List UInt64) : Prop :=
  ws.map UInt64.toBitVec = ((List.range m).map (Standard.w block)).reverse

section Schedule

variable {block : Nat → Standard.Word} {m : Nat} {ws : List UInt64}

theorem toBitVec_getD_of_scheduled (held : Scheduled block m ws) {i : Nat} (inside : i < m) :
    (ws.getD i 0).toBitVec = Standard.w block (m - 1 - i) := by
  have length : ws.length = m := by simpa using congrArg List.length held
  have here : i < ws.length := by omega
  have there : i < ((List.range m).map (Standard.w block)).length := by simpa using inside
  have bound : m - 1 - i < m := by omega
  have entry := congrArg (fun l => l[i]?) held
  simp only [List.getElem?_map, List.getElem?_eq_getElem here, List.getElem?_reverse there,
    List.length_map, List.length_range, List.getElem?_range bound, Option.map_some,
    Option.some.injEq] at entry
  rw [← List.getElem_eq_getD (h := here), entry]

theorem toBitVec_nextWord (held : Scheduled block m ws) (filled : 16 ≤ m) :
    (nextWord ws).toBitVec = Standard.w block m := by
  have at2 := toBitVec_getD_of_scheduled held (by omega : 1 < m)
  have at7 := toBitVec_getD_of_scheduled held (by omega : 6 < m)
  have at15 := toBitVec_getD_of_scheduled held (by omega : 14 < m)
  have at16 := toBitVec_getD_of_scheduled held (by omega : 15 < m)
  rw [Standard.w, if_neg (by omega), nextWord]
  simp only [UInt64.toBitVec_add, toBitVec_smallSigma0, toBitVec_smallSigma1, at2, at7, at15, at16,
    Nat.sub_sub]

theorem scheduled_extendSchedule (n : Nat) (held : Scheduled block m ws) (filled : 16 ≤ m) :
    Scheduled block (m + n) (extendSchedule n ws) := by
  induction n generalizing m ws with
  | zero => exact held
  | succ n ih =>
    have step : Scheduled block (m + 1) (nextWord ws :: ws) := by
      unfold Scheduled at held ⊢
      rw [List.map_cons, toBitVec_nextWord held filled, held, List.range_succ, List.map_append,
        List.reverse_append]
      rfl
    have rest := ih step (by omega)
    rwa [Nat.add_assoc, Nat.add_comm 1 n] at rest

end Schedule

theorem map_words (n : Nat) (bytes : List UInt8) :
    (words n bytes).map UInt64.toBitVec = (List.range n).map (Standard.word (bits bytes)) := by
  induction n generalizing bytes with
  | zero => rfl
  | succ n ih =>
    have later :
        Standard.word (bits (bytes.drop 8)) = fun j => Standard.word (bits bytes) (j + 1) := by
      funext j
      rw [word_bits, word_bits, List.drop_drop, Nat.mul_succ, Nat.add_comm]
    rw [words, List.map_cons, ih, later, List.range_succ_eq_map, List.map_cons, List.map_map,
      word_bits]
    rfl

/-- The eighty words of a block are those that the standard finds by their index. -/
theorem map_schedule {block : List UInt8} {f : Nat → Standard.Word}
    (contributes : ∀ t < 16, Standard.word (bits block) t = f t) :
    (schedule block).map UInt64.toBitVec = (List.range 80).map (Standard.w f) := by
  have start : Scheduled f 16 (words 16 block).reverse := by
    unfold Scheduled
    rw [List.map_reverse, map_words]
    congr 1
    apply List.map_congr_left
    intro t member
    have early := List.mem_range.mp member
    rw [contributes t early, Standard.w, if_pos early]
  have whole := scheduled_extendSchedule 64 start (Nat.le_refl 16)
  rw [schedule, List.map_reverse, whole, List.reverse_reverse]

/-! ## Rounds and blocks -/

/-- Constants and words in pairs from a list are constants and words by the number of the round. -/
theorem registers_foldl_round {f : Nat → Standard.Word} (s : State) (n : Nat) :
    ∀ ks ws : List UInt64, ks.map UInt64.toBitVec = (List.range n).map Standard.constant →
      ws.map UInt64.toBitVec = (List.range n).map (Standard.w f) →
      ((ks.zip ws).foldl (fun r kw => round r kw.1 kw.2) s).registers =
        Standard.rounds f s.registers n := by
  induction n with
  | zero =>
    intro ks ws constants _
    have none : ks = [] := by simpa using constants
    rw [none]
    rfl
  | succ n ih =>
    intro ks ws constants scheduled
    rw [List.range_succ, List.map_append, List.map_eq_append_iff] at constants scheduled
    obtain ⟨ks, last, rfl, frontConstants, lastConstant⟩ := constants
    obtain ⟨ws, latest, rfl, frontWords, lastWord⟩ := scheduled
    obtain ⟨k, rfl, constant⟩ := List.map_eq_singleton_iff.mp lastConstant
    obtain ⟨x, rfl, word⟩ := List.map_eq_singleton_iff.mp lastWord
    have aligned : ks.length = ws.length := by
      have left := congrArg List.length frontConstants
      have right := congrArg List.length frontWords
      rw [List.length_map, List.length_map] at left right
      omega
    rw [List.zip_append aligned, List.foldl_append, Standard.rounds, ← ih ks ws frontConstants
      frontWords, ← constant, ← word, ← registers_round]
    rfl

theorem registers_absorb {block : List UInt8} {f : Nat → Standard.Word} (s : State)
    (contributes : ∀ t < 16, Standard.word (bits block) t = f t) :
    (absorb s block).registers = Standard.compress f s.registers := by
  have run := registers_foldl_round s 80 roundConstants (schedule block) map_roundConstants
    (map_schedule contributes)
  rw [Standard.compress, ← run]
  rfl

/-- A block cut from the bytes has the words of the standard at its place. -/
theorem word_block (bytes : List UInt8) (i : Nat) {t : Nat} (early : t < 16) :
    Standard.word (bits ((bytes.drop (128 * i)).take 128)) t =
      Standard.word (bits bytes) (16 * i + t) := by
  have room : 8 ≤ 128 - 8 * t := by omega
  have place : 128 * i + 8 * t = 8 * (16 * i + t) := by omega
  rw [word_bits, word_bits, List.drop_take, List.take_take, Nat.min_eq_left room, List.drop_drop,
    place]

/-- The last of the blocks is absorbed last. -/
theorem absorbBlocks_succ (n : Nat) (s : State) (bytes : List UInt8) :
    absorbBlocks (n + 1) s bytes =
      absorb (absorbBlocks n s bytes) ((bytes.drop (128 * n)).take 128) := by
  induction n generalizing s bytes with
  | zero => rfl
  | succ n ih =>
    rw [absorbBlocks, ih, absorbBlocks, List.drop_drop, Nat.mul_succ, Nat.add_comm 128]

theorem registers_absorbBlocks (n : Nat) (bytes : List UInt8) :
    (absorbBlocks n initial bytes).registers = Standard.hash (bits bytes) n := by
  induction n with
  | zero => exact registers_initial
  | succ n ih =>
    rw [absorbBlocks_succ, Standard.hash, ← ih]
    exact registers_absorb _ fun t early => word_block bytes n early

theorem bits_flatMap_bytesOfWord (xs : List UInt64) :
    bits (xs.flatMap bytesOfWord) = xs.flatMap fun x => Digits.fixed 2 64 x.toNat := by
  induction xs with
  | nil => rfl
  | cons x xs ih => rw [List.flatMap_cons, bits_append, bits_bytesOfWord, ih, List.flatMap_cons]

/-- The digest has the bits that the standard gives, for byte sequences of every length. -/
theorem bits_digest (bytes : List UInt8) : bits (digest bytes) = Standard.digest (bits bytes) := by
  have blocks : (pad bytes).length * 8 / 1024 = (pad bytes).length / 128 :=
    Nat.mul_div_mul_right _ 128 (by decide)
  rw [digest, bits_flatMap_bytesOfWord, Standard.digest, ← bits_pad, length_bits, blocks,
    ← registers_absorbBlocks]
  rfl

end ProtocolIdent.Sha512
