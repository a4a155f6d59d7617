import Mathlib.Tactic.IntervalCases
import Mathlib.Tactic.SplitIfs
import ProtocolIdent.Hex
import ProtocolIdent.Proofs.Digits

/-!
# Hexadecimal digits read and written

A character is read as a digit exactly if its lower-case form is how the digit is written
(`value?_eq_some_iff`), so reading forgets the case of a letter and nothing else. The two digits
of each byte, one byte after the other, are the digits of the number that the bytes denote
(`ofBytes_eq_fixed`).
-/
namespace ProtocolIdent.Hex

/-- The digits that are written: decimal digits and the letters from `a` to `f`. -/
def IsLower (c : Char) : Prop :=
  ('0' ≤ c ∧ c ≤ '9') ∨ ('a' ≤ c ∧ c ≤ 'f')

instance (c : Char) : Decidable (IsLower c) :=
  inferInstanceAs (Decidable (_ ∨ _))

theorem isLower_digitChar {d : Nat} (small : d < 16) : IsLower (Nat.digitChar d) := by
  interval_cases d <;> decide

theorem toLower_of_isLower {c : Char} (lower : IsLower c) : c.toLower = c := by
  have all : ∀ n < 128, IsLower (Char.ofNat n) → (Char.ofNat n).toLower = Char.ofNat n := by
    decide +kernel
  have ascii : c.toNat < 128 := by
    rcases lower with ⟨-, high⟩ | ⟨-, high⟩ <;>
    · rw [Char.le_def, UInt32.le_iff_toNat_le] at high
      exact Nat.lt_of_le_of_lt high (by decide)
  have here := all c.toNat ascii
  rw [Char.ofNat_toNat] at here
  exact here lower

theorem map_toLower_of_isLower {cs : List Char} (lower : ∀ c ∈ cs, IsLower c) :
    cs.map Char.toLower = cs :=
  (List.map_congr_left fun c member => toLower_of_isLower (lower c member)).trans (List.map_id _)

@[simp] theorem toLower_digitChar {d : Nat} (small : d < 16) :
    (Nat.digitChar d).toLower = Nat.digitChar d :=
  toLower_of_isLower (isLower_digitChar small)

theorem lt_of_value?_eq_some {c : Char} {d : Nat} (read : value? c = some d) :
    c.toNat < 128 ∧ d < 16 := by
  unfold value? at read
  simp only [Char.le_def, UInt32.le_iff_toNat_le, Char.toNat_val, Char.reduceToNat] at read
  split_ifs at read with decimal lower upper <;>
  · cases read
    omega

/-- Only ASCII characters have ASCII lower-case forms. -/
theorem lt_of_toLower_lt {c : Char} (ascii : c.toLower.toNat < 128) : c.toNat < 128 := by
  unfold Char.toLower at ascii
  split at ascii
  · rename_i upper
    exact Nat.lt_of_le_of_lt upper.2 (by decide)
  · exact ascii

theorem value?_ascii : ∀ n < 128, ∀ d < 16,
    value? (Char.ofNat n) = some d ↔ (Char.ofNat n).toLower = Nat.digitChar d := by
  decide +kernel

/-- A character is read as a digit exactly if its lower-case form is how the digit is written. -/
theorem value?_eq_some_iff {c : Char} {d : Nat} :
    value? c = some d ↔ d < 16 ∧ c.toLower = Nat.digitChar d := by
  constructor
  · intro read
    obtain ⟨ascii, small⟩ := lt_of_value?_eq_some read
    have agree := value?_ascii c.toNat ascii d small
    rw [Char.ofNat_toNat] at agree
    exact ⟨small, agree.mp read⟩
  · rintro ⟨small, written⟩
    have ascii : c.toNat < 128 := by
      apply lt_of_toLower_lt
      rw [written]
      interval_cases d <;> decide
    have agree := value?_ascii c.toNat ascii d small
    rw [Char.ofNat_toNat] at agree
    exact agree.mpr written

/-- A letter from `A` to `F` in lower case; other characters stay. -/
def lowerLetter (c : Char) : Char :=
  if 'A' ≤ c ∧ c ≤ 'F' then Char.ofNat (c.toNat + 32) else c

/-- A digit has no letters but those from `A` to `F`. -/
theorem lowerLetter_of_value? {c : Char} {d : Nat} (read : value? c = some d) :
    lowerLetter c = c.toLower := by
  have all : ∀ n < 128, value? (Char.ofNat n) ≠ none →
      lowerLetter (Char.ofNat n) = (Char.ofNat n).toLower := by
    decide +kernel
  have here := all c.toNat (lt_of_value?_eq_some read).1
  rw [Char.ofNat_toNat] at here
  exact here (by simp [read])

/-- A text is read as digits exactly if its lower-case form is how the digits are written. -/
theorem mapM_value?_eq_some_iff {cs : List Char} {ds : List Nat} :
    cs.mapM value? = some ds ↔
      (∀ d ∈ ds, d < 16) ∧ cs.map Char.toLower = ds.map Nat.digitChar := by
  induction cs generalizing ds with
  | nil => cases ds <;> simp
  | cons c cs ih =>
    constructor
    · intro read
      rw [List.mapM_cons] at read
      cases first : value? c with
      | none => simp [first] at read
      | some d =>
        cases later : cs.mapM value? with
        | none => simp [first, later] at read
        | some es =>
          simp only [first, later, Option.pure_def, Option.bind_eq_bind, Option.bind_some,
            Option.some.injEq] at read
          subst read
          obtain ⟨small, written⟩ := value?_eq_some_iff.mp first
          obtain ⟨smalls, writtens⟩ := ih.mp later
          exact ⟨by simpa [small] using smalls, by simp [written, writtens]⟩
    · rintro ⟨small, written⟩
      cases ds with
      | nil => simp at written
      | cons d ds =>
        simp only [List.map_cons, List.cons.injEq] at written
        have first := value?_eq_some_iff.mpr ⟨small d (by simp), written.1⟩
        have later := ih.mpr ⟨fun e member => small e (by simp [member]), written.2⟩
        rw [List.mapM_cons, first, later]
        rfl

theorem ofBytes_eq_flatMap (bytes : List UInt8) :
    ofBytes bytes =
      ((bytes.map UInt8.toNat).flatMap (Digits.fixed 16 2)).map Nat.digitChar := by
  rw [ofBytes, List.flatMap_map, List.map_flatMap]

/-- The digits of bytes are those of the number that the bytes denote. -/
theorem ofBytes_eq_fixed (bytes : List UInt8) :
    ofBytes bytes = (Digits.fixed 16 (bytes.length * 2)
      (Digits.value 256 (bytes.map UInt8.toNat))).map Nat.digitChar := by
  rw [ofBytes_eq_flatMap, Digits.regroup (by decide : 16 ^ 2 = 256) (Digits.byte_lt bytes),
    List.length_map]

@[simp] theorem length_ofBytes (bytes : List UInt8) :
    (ofBytes bytes).length = bytes.length * 2 := by
  simp [ofBytes_eq_fixed]

theorem take_ofBytes (k : Nat) (bytes : List UInt8) :
    (ofBytes bytes).take (k * 2) = ofBytes (bytes.take k) := by
  rw [ofBytes_eq_flatMap, ofBytes_eq_flatMap, ← List.map_take, Digits.take_flatMap_fixed,
    List.map_take]

/-! ## Numerals without leading zeros -/

/-- The digits of a number in lower case, none of them a zero before others. -/
structure IsNumeral (cs : List Char) (n : Nat) : Prop where
  lower : ∀ c ∈ cs, IsLower c
  value : (cs.mapM value?).map (Digits.value 16) = some n
  nonempty : cs ≠ []
  lead : cs.head? = some '0' → cs = ['0']

theorem isNumeral_minimal (n : Nat) : IsNumeral (minimal n) n := by
  obtain ⟨d, ds, small, -, denoted, written⟩ := Digits.exists_toDigits (by decide : 1 < 16) n
  have lower : ∀ c ∈ minimal n, IsLower c := by
    intro c member
    rw [minimal, written] at member
    obtain ⟨e, listed, rfl⟩ := List.mem_map.mp member
    exact isLower_digitChar (small e listed)
  have read : (minimal n).mapM value? = some (d :: ds) := by
    refine mapM_value?_eq_some_iff.mpr ⟨small, ?_⟩
    rw [← written]
    exact map_toLower_of_isLower lower
  refine ⟨lower, ?_, Nat.toDigits_ne_nil, ?_⟩
  · rw [read, Option.map_some, denoted]
  · intro zero
    rw [Digits.eq_zero_of_head?_toDigits (by decide) (by decide) zero]
    rfl

/-- A number has one such numeral. -/
theorem isNumeral_iff {cs : List Char} {n : Nat} : IsNumeral cs n ↔ cs = minimal n := by
  refine ⟨fun numeral => ?_, fun same => same ▸ isNumeral_minimal n⟩
  obtain ⟨ds, read, denoted⟩ := Option.map_eq_some_iff.mp numeral.value
  obtain ⟨small, written⟩ := mapM_value?_eq_some_iff.mp read
  rw [map_toLower_of_isLower numeral.lower] at written
  cases ds with
  | nil => exact absurd written numeral.nonempty
  | cons d ds =>
    have noZero : d = 0 → ds = [] := by
      intro zero
      have single := numeral.lead (by rw [written, zero]; rfl)
      rw [single, List.map_cons] at written
      exact List.map_eq_nil_iff.mp (List.cons.inj written).2.symm
    rw [minimal, ← denoted, Digits.toDigits_value (by decide) small noZero, written]

end ProtocolIdent.Hex
