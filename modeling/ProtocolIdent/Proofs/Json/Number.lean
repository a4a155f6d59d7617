import ProtocolIdent.Proofs.DecimalText
import ProtocolIdent.Proofs.Json.Ident

/-!
# Whole numbers in documents

A number without sign, point and exponent has one spelling, its decimal digits. The reader takes a
token for such a number exactly if it is these digits, fits 64 bits, and is not gone on with
(`readToken_eq_whole_iff`).
-/
namespace ProtocolIdent.Json

open Digits (NoDigit takeWhile_digits noDigit_dropWhile exists_first_digit)

/-! ## Digits are read -/

theorem readDigits_eq_ok_iff {cs rest : List Char} {ds : List Nat} :
    readDigits cs = .ok (ds, rest) ↔
      ∃ c front, (∀ d ∈ c :: front, d.isDigit = true) ∧ NoDigit rest ∧
        ds = (c :: front).map digitValue ∧ cs = c :: front ++ rest := by
  constructor
  · intro read
    unfold readDigits at read
    split at read
    · cases read
    · rename_i c left
      split at read
      · rename_i digit
        obtain ⟨rfl, rfl⟩ := Prod.mk.inj (Except.ok.inj read)
        have shape := List.takeWhile_cons_of_pos (l := left) digit
        refine ⟨c, left.takeWhile Char.isDigit, ?_, noDigit_dropWhile _, by rw [shape], ?_⟩
        · rw [← shape]
          exact fun d member => List.mem_takeWhile_imp member
        · rw [← shape, List.takeWhile_append_dropWhile]
      · cases read
  · rintro ⟨c, front, digits, stop, rfl, rfl⟩
    obtain ⟨taken, left⟩ := takeWhile_digits digits stop
    rw [List.cons_append] at taken left ⊢
    rw [readDigits, if_pos (digits c List.mem_cons_self), taken, left]

/-- Before the point stand the digits of a number. -/
theorem readWhole_eq_ok_iff {cs rest : List Char} {ds : List Nat} :
    readWhole cs = .ok (ds, rest) ↔
      NoDigit rest ∧ ∃ n, ds = (Nat.toDigits 10 n).map digitValue ∧
        cs = Nat.toDigits 10 n ++ rest := by
  constructor
  · intro read
    have noZero : readDigits cs = .ok (ds, rest) ∧ ∀ e es, ds ≠ 0 :: e :: es := by
      unfold readWhole at read
      split at read
      · cases read
      · rename_i other
        refine ⟨read, ?_⟩
        rintro e es rfl
        exact other e es rest read
    obtain ⟨c, front, digits, stop, rfl, rfl⟩ := readDigits_eq_ok_iff.mp noZero.1
    have lead : c = '0' → front = [] := by
      rintro rfl
      cases front with
      | nil => rfl
      | cons d front => exact absurd rfl (noZero.2 _ _)
    have spelled := Digits.toDigits_ofDigitChars digits lead
    exact ⟨stop, _, by rw [spelled], by rw [spelled]⟩
  · rintro ⟨stop, n, rfl, rfl⟩
    obtain ⟨c, front, spelled, digits⟩ := exists_first_digit n
    have read := readDigits_eq_ok_iff.mpr ⟨c, front, digits, stop, rfl, rfl⟩
    rw [spelled]
    unfold readWhole
    split
    · rename_i zeros
      rw [read] at zeros
      obtain ⟨same, -⟩ := Prod.mk.inj (Except.ok.inj zeros)
      rw [List.map_cons, List.cons.injEq] at same
      have none : c.toNat - 48 = 0 := same.1
      have zero : c = '0' := by
        rw [← (Digits.digitChar_toNat_sub (digits c List.mem_cons_self)).2, none]
        rfl
      rw [zero] at spelled
      rw [Digits.toDigits_eq_zero_cons spelled] at same
      cases same.2
    · exact read

/-! ## Numerals -/

theorem le_foldl_digits (s : Nat) (ds : List Nat) : s ≤ ds.foldl (fun n d => n * 10 + d) s := by
  induction ds generalizing s with
  | nil => exact Nat.le_refl s
  | cons d ds ih =>
    have later := ih (s * 10 + d)
    rw [List.foldl_cons]
    omega

/-- No digit is left out exactly if the number fits 64 bits. -/
theorem absorb_eq_iff {s n : Nat} {ds : List Nat} (small : s < UInt64.size) :
    absorb s ds = (n, 0) ↔ ds.foldl (fun n d => n * 10 + d) s = n ∧ n < UInt64.size := by
  induction ds generalizing s with
  | nil =>
    rw [absorb, List.foldl_nil, Prod.mk.injEq]
    constructor
    · rintro ⟨rfl, -⟩
      exact ⟨rfl, small⟩
    · rintro ⟨rfl, -⟩
      exact ⟨rfl, rfl⟩
  | cons d ds ih =>
    rw [absorb, List.foldl_cons]
    split
    · rename_i fits
      exact ih fits
    · have more := le_foldl_digits (s * 10 + d) ds
      constructor
      · intro same
        cases (Prod.mk.inj same).2
      · rintro ⟨rfl, bound⟩
        omega

theorem absorb_toDigits_iff {m n : Nat} :
    absorb 0 ((Nat.toDigits 10 m).map digitValue) = (n, 0) ↔ m = n ∧ n < UInt64.size := by
  have value : ((Nat.toDigits 10 m).map digitValue).foldl (fun n d => n * 10 + d) 0 = m :=
    Digits.value_toDigits m
  rw [absorb_eq_iff (by decide), value]

theorem map_signed_ne_whole (negative : Bool) (x : Option Float) (n : Int) :
    x.map (Numeral.value?.signed negative) ≠ some (.whole n) := by
  cases x with
  | none => nofun
  | some x => nofun

/-- A numeral is a whole number that is not negative exactly if it has neither sign nor point nor
exponent and fits 64 bits. -/
theorem value?_eq_whole_iff {numeral : Numeral} {n : Nat} :
    numeral.value? = some (.whole n) ↔
      numeral.negative = false ∧ numeral.fraction = none ∧ numeral.exponent = none ∧
        absorb 0 numeral.wholeDigits = (n, 0) := by
  obtain ⟨negative, wholeDigits, fraction, exponent⟩ := numeral
  constructor
  · intro value
    unfold Numeral.value? at value
    dsimp only at value
    cases absorbed : absorb 0 wholeDigits with
    | mk whole dropped =>
      rw [absorbed] at value
      dsimp only at value
      split at value
      · split_ifs at value with plain below
        · obtain ⟨rfl, rfl⟩ := plain
          have same := Number.whole.inj (Option.some.inj value)
          exact ⟨rfl, rfl, rfl, by rw [Int.ofNat.inj same]⟩
        · have same := Number.whole.inj (Option.some.inj value)
          omega
        · exact absurd value (map_signed_ne_whole _ _ _)
      · exact absurd value (map_signed_ne_whole _ _ _)
  · rintro ⟨rfl, rfl, rfl, fits⟩
    simp [Numeral.value?, fits]

/-! ## Tokens -/

/-- The text does not go on with what would still belong to the number before it. -/
def EndsNumber (rest : List Char) : Prop :=
  ∀ c ∈ rest.head?, c.isDigit = false ∧ c ≠ '.' ∧ c ≠ 'e' ∧ c ≠ 'E'

theorem readFraction_eq_none_iff {cs rest : List Char} :
    readFraction cs = .ok (none, rest) ↔ cs = rest ∧ ∀ c ∈ rest.head?, c ≠ '.' := by
  unfold readFraction
  split
  · rename_i left
    constructor
    · intro read
      obtain ⟨_, -, same⟩ := exists_of_map_eq_ok read
      cases same
    · rintro ⟨rfl, stop⟩
      exact absurd rfl (stop '.' rfl)
  · rename_i noPoint
    rw [Except.ok.injEq, Prod.mk.injEq, eq_self, true_and]
    refine ⟨?_, And.left⟩
    rintro rfl
    refine ⟨rfl, fun c first => ?_⟩
    rintro rfl
    cases cs with
    | nil => cases first
    | cons d left =>
      cases first
      exact noPoint left rfl

theorem readExponent_eq_none_iff {cs rest : List Char} :
    readExponent cs = .ok (none, rest) ↔ cs = rest ∧ ∀ c ∈ rest.head?, c ≠ 'e' ∧ c ≠ 'E' := by
  unfold readExponent
  split
  · constructor
    · intro read
      obtain ⟨_, -, same⟩ := exists_of_map_eq_ok read
      cases same
    · rintro ⟨rfl, stop⟩
      exact absurd rfl (stop 'e' rfl).1
  · constructor
    · intro read
      obtain ⟨_, -, same⟩ := exists_of_map_eq_ok read
      cases same
    · rintro ⟨rfl, stop⟩
      exact absurd rfl (stop 'E' rfl).2
  · rename_i noLower noUpper
    rw [Except.ok.injEq, Prod.mk.injEq, eq_self, true_and]
    refine ⟨?_, And.left⟩
    rintro rfl
    refine ⟨rfl, fun c first => ?_⟩
    cases cs with
    | nil => cases first
    | cons d left =>
      cases first
      refine ⟨?_, ?_⟩
      · rintro rfl
        exact noLower left rfl
      · rintro rfl
        exact noUpper left rfl

theorem endsNumber_iff {rest : List Char} :
    EndsNumber rest ↔ NoDigit rest ∧ (∀ c ∈ rest.head?, c ≠ '.') ∧
      ∀ c ∈ rest.head?, c ≠ 'e' ∧ c ≠ 'E' := by
  simp only [EndsNumber, NoDigit, forall_and]

theorem toDigits_append_ne_minus (n : Nat) (rest left : List Char) :
    Nat.toDigits 10 n ++ rest ≠ '-' :: left := by
  obtain ⟨c, front, spelled, digits⟩ := exists_first_digit n
  rw [spelled]
  intro same
  cases same
  exact absurd (digits '-' List.mem_cons_self) (by decide)

theorem readNumber_eq_whole_iff {cs rest : List Char} {n : Nat} :
    readNumber cs = .ok (.whole n, rest) ↔
      n < UInt64.size ∧ EndsNumber rest ∧ cs = Nat.toDigits 10 n ++ rest := by
  constructor
  · intro read
    unfold readNumber at read
    split at read
    rename_i negative unsigned sign
    obtain ⟨⟨wholeDigits, left⟩, whole, read⟩ := exists_of_bind_eq_ok read
    obtain ⟨⟨fraction, left⟩, point, read⟩ := exists_of_bind_eq_ok read
    obtain ⟨⟨exponent, left⟩, power, read⟩ := exists_of_bind_eq_ok read
    dsimp only at read whole point power
    split at read
    · rename_i number value
      obtain ⟨rfl, rfl⟩ := Prod.mk.inj (Except.ok.inj read)
      obtain ⟨rfl, rfl, rfl, fits⟩ := value?_eq_whole_iff.mp value
      obtain ⟨rfl, noMark⟩ := readExponent_eq_none_iff.mp power
      obtain ⟨rfl, noPoint⟩ := readFraction_eq_none_iff.mp point
      obtain ⟨noDigit, m, rfl, rfl⟩ := readWhole_eq_ok_iff.mp whole
      obtain ⟨rfl, bound⟩ := absorb_toDigits_iff.mp fits
      split at sign
      · cases sign
      · obtain ⟨-, rfl⟩ := Prod.mk.inj sign
        exact ⟨bound, endsNumber_iff.mpr ⟨noDigit, noPoint, noMark⟩, rfl⟩
    · cases read
  · rintro ⟨bound, stop, rfl⟩
    obtain ⟨noDigit, noPoint, noMark⟩ := endsNumber_iff.mp stop
    have whole := readWhole_eq_ok_iff.mpr ⟨noDigit, n, rfl, rfl⟩
    have value : Numeral.value? { wholeDigits := (Nat.toDigits 10 n).map digitValue } =
        some (.whole n) :=
      value?_eq_whole_iff.mpr ⟨rfl, rfl, rfl, absorb_toDigits_iff.mpr ⟨rfl, bound⟩⟩
    unfold readNumber
    split
    rename_i negative unsigned sign
    split at sign
    · rename_i left minus
      exact absurd minus (toDigits_append_ne_minus n rest left)
    · obtain ⟨rfl, rfl⟩ := Prod.mk.inj sign
      simp only [whole, readFraction_eq_none_iff.mpr ⟨rfl, noPoint⟩,
        readExponent_eq_none_iff.mpr ⟨rfl, noMark⟩, bind, Except.bind, value]
      rfl

/-- A digit begins a number and nothing else. -/
theorem readToken_of_isDigit {c : Char} {cs : List Char} (digit : c.isDigit = true) :
    readToken (c :: cs) = (readNumber (c :: cs)).map fun (n, rest) => (.number n, rest) := by
  unfold readToken
  split
  case h_8 d left noQuote noBracket noBrace noN noT noF same =>
    obtain ⟨rfl, rfl⟩ := List.cons.inj same
    exact if_pos (Or.inl digit)
  case h_1 empty => cases empty
  all_goals
    rename_i same
    cases same
    exact absurd digit (by decide)

theorem readToken_eq_whole_iff {cs rest : List Char} {n : Nat} :
    readToken cs = .ok (.number (.whole n), rest) ↔
      n < UInt64.size ∧ EndsNumber rest ∧ cs = Nat.toDigits 10 n ++ rest := by
  constructor
  · intro read
    unfold readToken at read
    split at read
    case h_1 => cases read
    case h_3 => cases read
    case h_4 => cases read
    case h_8 =>
      split at read
      · obtain ⟨⟨number, left⟩, found, same⟩ := exists_of_map_eq_ok read
        cases same
        exact readNumber_eq_whole_iff.mp found
      · cases read
    all_goals
      obtain ⟨_, -, same⟩ := exists_of_map_eq_ok read
      cases same
  · rintro ⟨bound, stop, shape⟩
    have read := readNumber_eq_whole_iff.mpr ⟨bound, stop, shape⟩
    obtain ⟨c, front, spelled, digits⟩ := exists_first_digit n
    rw [spelled, List.cons_append] at shape
    rw [shape, readToken_of_isDigit (digits c List.mem_cons_self), ← shape, read]
    rfl

end ProtocolIdent.Json
