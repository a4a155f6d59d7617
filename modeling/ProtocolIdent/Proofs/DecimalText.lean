import ProtocolIdent.Proofs.Digits

/-!
# Decimal digits in texts

A number is read from its decimal digits as what it was written for (`value_toDigits`), and digits
are those of the number that is read from them unless a zero stands before others
(`toDigits_ofDigitChars`). The digits at the front of a text end where the text does not go on with
a digit (`takeWhile_digits`).
-/
namespace ProtocolIdent.Digits

/-- A decimal digit is written for how far it stands behind zero. -/
theorem digitChar_toNat_sub {c : Char} (digit : c.isDigit = true) :
    c.toNat - 48 < 10 ∧ Nat.digitChar (c.toNat - 48) = c := by
  obtain ⟨low, high⟩ := Char.isDigit_iff_toNat.mp digit
  have zero : '0'.toNat = 48 := rfl
  have nine : '9'.toNat = 57 := rfl
  have small : c.toNat - 48 < 10 := by omega
  refine ⟨small, Char.toNat_inj.mp ?_⟩
  rw [Nat.toNat_digitChar_of_lt_ten small]
  omega

theorem value_map_toNat_sub (cs : List Char) :
    value 10 (cs.map fun c => c.toNat - 48) = Nat.ofDigitChars 10 cs 0 := by
  rw [Nat.ofDigitChars_eq_foldl, value, List.foldl_map]
  congr 1
  funext n c
  rw [Nat.mul_comm]
  rfl

theorem value_toDigits (n : Nat) :
    value 10 ((Nat.toDigits 10 n).map fun c => c.toNat - 48) = n := by
  rw [value_map_toNat_sub, Nat.ofDigitChars_ten_toDigits]

/-- Digits are those of their value, unless a zero stands before others. -/
theorem toDigits_ofDigitChars {c : Char} {cs : List Char} (digits : ∀ d ∈ c :: cs, d.isDigit = true)
    (lead : c = '0' → cs = []) :
    Nat.toDigits 10 (Nat.ofDigitChars 10 (c :: cs) 0) = c :: cs := by
  have small : ∀ e ∈ (c :: cs).map fun c => c.toNat - 48, e < 10 := by
    intro e member
    obtain ⟨d, listed, rfl⟩ := List.mem_map.mp member
    exact (digitChar_toNat_sub (digits d listed)).1
  have noZero : c.toNat - 48 = 0 → cs.map (fun c => c.toNat - 48) = [] := by
    intro zero
    have same := (digitChar_toNat_sub (digits c List.mem_cons_self)).2
    rw [zero] at same
    rw [lead same.symm]
    rfl
  have written : ((c :: cs).map fun c => c.toNat - 48).map Nat.digitChar = c :: cs := by
    rw [List.map_map]
    refine (List.map_congr_left fun d member => ?_).trans (List.map_id _)
    exact (digitChar_toNat_sub (digits d member)).2
  rw [← value_map_toNat_sub]
  exact (toDigits_value (by decide) small noZero).trans written

theorem isDigit_of_mem_toDigits {n : Nat} {c : Char} (member : c ∈ Nat.toDigits 10 n) :
    c.isDigit = true :=
  Nat.isDigit_of_mem_toDigits (by decide) (by decide) member

theorem exists_first_digit (n : Nat) :
    ∃ c front, Nat.toDigits 10 n = c :: front ∧ ∀ d ∈ c :: front, d.isDigit = true := by
  have some : Nat.toDigits 10 n ≠ [] := Nat.toDigits_ne_nil
  obtain ⟨c, front, spelled⟩ := List.exists_cons_of_ne_nil some
  exact ⟨c, front, spelled, fun d member => isDigit_of_mem_toDigits (spelled ▸ member)⟩

/-- No zero stands before the digits of a number. -/
theorem toDigits_eq_zero_cons {n : Nat} {cs : List Char} (shape : Nat.toDigits 10 n = '0' :: cs) :
    cs = [] := by
  have zero : (Nat.toDigits 10 n).head? = some '0' := by rw [shape, List.head?_cons]
  have none : n = 0 := eq_zero_of_head?_toDigits (by decide) (by decide) zero
  subst none
  cases shape
  rfl

/-! ## Digits off the front of a text -/

/-- The text does not go on with a digit. -/
def NoDigit (rest : List Char) : Prop :=
  ∀ c ∈ rest.head?, c.isDigit = false

theorem takeWhile_digits {front rest : List Char} (digits : ∀ c ∈ front, c.isDigit = true)
    (stop : NoDigit rest) :
    (front ++ rest).takeWhile Char.isDigit = front ∧
      (front ++ rest).dropWhile Char.isDigit = rest := by
  rw [List.takeWhile_append_of_pos digits, List.dropWhile_append_of_pos digits]
  cases rest with
  | nil => simp
  | cons c rest =>
    have other : ¬ c.isDigit = true := by simp [stop c rfl]
    rw [List.takeWhile_cons_of_neg other, List.dropWhile_cons_of_neg other]
    simp

theorem noDigit_dropWhile (cs : List Char) : NoDigit (cs.dropWhile Char.isDigit) := by
  intro c first
  have stopped := List.head?_dropWhile_not Char.isDigit cs
  rw [Option.mem_def.mp first] at stopped
  exact stopped

end ProtocolIdent.Digits
