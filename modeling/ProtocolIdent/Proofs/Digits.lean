import Mathlib.Data.List.Induction
import Mathlib.Tactic.Ring
import ProtocolIdent.Digits

/-!
# Numerals read, written and regrouped

Digits below the base and the number they denote determine each other, up to a power of the base
(`value_fixed`, `fixed_value`). A digit of base `b ^ k` is `k` digits of base `b`, so a numeral of
the larger base can be written out digit by digit in the smaller one (`flatMap_fixed`, `regroup`):
bytes as pairs of hexadecimal digits, bytes as eight bits, words as eight bytes. Numerals of one
width are ordered as the numbers are (`compare_fixed`).
-/
namespace ProtocolIdent.Digits

/-- Writing keeps the number modulo `b ^ k`. -/
theorem value_fixed (b k n : Nat) : value b (fixed b k n) = n % b ^ k := by
  induction k generalizing n with
  | zero => simp [fixed, Nat.mod_one]
  | succ k ih =>
    rw [fixed, value_concat, ih, Nat.pow_succ, Nat.mul_comm (b ^ k) b, Nat.mod_mul,
      Nat.mul_comm b (n / b % b ^ k), Nat.add_comm]

/-- The last `j + k` digits are the last `j` of what stands before the last `k`, and those. -/
theorem fixed_add (b j k n : Nat) :
    fixed b (j + k) n = fixed b j (n / b ^ k) ++ fixed b k n := by
  induction k generalizing n with
  | zero => simp [fixed]
  | succ k ih =>
    rw [← Nat.add_assoc, fixed, ih, Nat.div_div_eq_div_mul, ← Nat.pow_succ', fixed,
      List.append_assoc]

/-- What stands before the last `k` digits has no effect on them. -/
theorem fixed_mod (b k n : Nat) : fixed b k (n % b ^ k) = fixed b k n := by
  induction k generalizing n with
  | zero => rfl
  | succ k ih =>
    have before : n % b ^ (k + 1) / b = n / b % b ^ k := by
      rw [Nat.pow_succ, Nat.mod_mul_left_div_self]
    have last : n % b ^ (k + 1) % b = n % b :=
      Nat.mod_mod_of_dvd n (Dvd.intro_left (b ^ k) rfl)
    rw [fixed, before, last, ih, fixed]

/-- Digit `i` is the one that `k - 1 - i` others follow. -/
theorem getElem?_fixed {b k n i : Nat} (inside : i < k) :
    (fixed b k n)[i]? = some (n / b ^ (k - 1 - i) % b) := by
  induction k generalizing n with
  | zero => omega
  | succ k ih =>
    rw [fixed]
    by_cases front : i < k
    · have place : k + 1 - 1 - i = k - 1 - i + 1 := by omega
      rw [List.getElem?_append_left (by rwa [length_fixed]), ih front, Nat.div_div_eq_div_mul,
        ← Nat.pow_succ', place]
    · have last : i = k := by omega
      subst last
      simp

theorem value_lt {b : Nat} {ds : List Nat} (small : ∀ d ∈ ds, d < b) :
    value b ds < b ^ ds.length := by
  induction ds using List.reverseRecOn with
  | nil => simp
  | append_singleton ds d ih =>
    have front : value b ds + 1 ≤ b ^ ds.length :=
      ih fun e member => small e (List.mem_append_left _ member)
    have last : d < b := small d (by simp)
    rw [value_concat, List.length_append, List.length_singleton, Nat.pow_succ]
    calc
      value b ds * b + d < value b ds * b + b := Nat.add_lt_add_left last _
      _ = (value b ds + 1) * b := by ring
      _ ≤ b ^ ds.length * b := Nat.mul_le_mul_right b front

/-- Writing what was read gives the digits back. -/
theorem fixed_value {b : Nat} {ds : List Nat} (small : ∀ d ∈ ds, d < b) :
    fixed b ds.length (value b ds) = ds := by
  induction ds using List.reverseRecOn with
  | nil => rfl
  | append_singleton ds d ih =>
    have front := ih fun e member => small e (List.mem_append_left _ member)
    have last : d < b := small d (by simp)
    obtain ⟨before, here⟩ := (Nat.div_mod_unique (Nat.zero_lt_of_lt last)).mpr
      ⟨(by ring : d + b * value b ds = value b ds * b + d), last⟩
    rw [List.length_append, List.length_singleton, value_concat, fixed, before, here, front]

/-- Each digit of base `b ^ k` is written as `k` digits of base `b`. -/
theorem flatMap_fixed {b k big : Nat} (base : b ^ k = big) (m n : Nat) :
    (fixed big m n).flatMap (fixed b k) = fixed b (m * k) n := by
  subst base
  induction m generalizing n with
  | zero => simp [fixed]
  | succ m ih =>
    rw [fixed, List.flatMap_append, ih, List.flatMap_singleton, fixed_mod, Nat.succ_mul, fixed_add]

@[simp] theorem length_flatMap_fixed (b k : Nat) (ds : List Nat) :
    (ds.flatMap (fixed b k)).length = ds.length * k := by
  induction ds with
  | nil => simp
  | cons d ds ih =>
    rw [List.flatMap_cons, List.length_append, length_fixed, ih, List.length_cons, Nat.succ_mul,
      Nat.add_comm]

theorem take_flatMap_fixed (b k m : Nat) (ds : List Nat) :
    (ds.flatMap (fixed b k)).take (m * k) = (ds.take m).flatMap (fixed b k) := by
  induction m generalizing ds with
  | zero => simp
  | succ m ih =>
    cases ds with
    | nil => simp
    | cons d ds =>
      have front : (m + 1) * k = (fixed b k d).length + m * k := by
        rw [length_fixed, Nat.succ_mul, Nat.add_comm]
      rw [List.flatMap_cons, front, List.take_length_add_append, ih, List.take_succ_cons,
        List.flatMap_cons]

theorem drop_flatMap_fixed (b k m : Nat) (ds : List Nat) :
    (ds.flatMap (fixed b k)).drop (m * k) = (ds.drop m).flatMap (fixed b k) := by
  refine (List.append_right_inj ((ds.take m).flatMap (fixed b k))).mp ?_
  rw [← List.flatMap_append, List.take_append_drop, ← take_flatMap_fixed, List.take_append_drop]

/-- Bytes are digits of base 256. -/
theorem byte_lt (bytes : List UInt8) : ∀ d ∈ bytes.map UInt8.toNat, d < 256 := by
  intro d member
  obtain ⟨b, -, rfl⟩ := List.mem_map.mp member
  exact b.toNat_lt

theorem regroup {b k big : Nat} {ds : List Nat} (base : b ^ k = big) (small : ∀ d ∈ ds, d < big) :
    ds.flatMap (fixed b k) = fixed b (ds.length * k) (value big ds) := by
  rw [← flatMap_fixed base, fixed_value small]

/-! ## Order -/

/-- Of two lists of one length the last elements are compared only if all before them agree. -/
theorem compare_concat {α : Type} [Ord α] {xs ys : List α} (x y : α)
    (aligned : xs.length = ys.length) :
    compare (xs ++ [x]) (ys ++ [y]) = (compare xs ys).then (compare x y) := by
  induction xs generalizing ys with
  | nil =>
    have empty : ys = [] := List.length_eq_zero_iff.mp aligned.symm
    subst empty
    rw [List.nil_append, List.nil_append, List.compare_cons_cons]
    cases compare x y <;> rfl
  | cons a xs ih =>
    cases ys with
    | nil => cases aligned
    | cons b ys =>
      have later := ih (Nat.succ.inj aligned)
      rw [List.cons_append, List.cons_append, List.compare_cons_cons, List.compare_cons_cons,
        later, Ordering.then_assoc]

/-- Numbers that agree before their last digits are ordered by these. -/
theorem lt_iff_mod_lt {b m n : Nat} (same : m / b = n / b) : m < n ↔ m % b < n % b := by
  rw [← Nat.div_add_mod m b, ← Nat.div_add_mod n b, same]
  simp

theorem compare_div_mod (b m n : Nat) :
    (compare (m / b) (n / b)).then (compare (m % b) (n % b)) = compare m n := by
  rcases Nat.lt_trichotomy (m / b) (n / b) with less | same | more
  · have whole : m < n := Nat.lt_of_div_lt_div less
    rw [Nat.compare_eq_lt.mpr less, Nat.compare_eq_lt.mpr whole]
    rfl
  · rw [Nat.compare_eq_eq.mpr same, Nat.compare_eq_ite_lt m n]
    simp only [lt_iff_mod_lt same, lt_iff_mod_lt same.symm, ← Nat.compare_eq_ite_lt]
    rfl
  · have whole : n < m := Nat.lt_of_div_lt_div more
    rw [Nat.compare_eq_gt.mpr more, Nat.compare_eq_gt.mpr whole]
    rfl

/-- Numerals of one width are in the lexicographic order of their digits. -/
theorem compare_fixed {b k m n : Nat} (hm : m < b ^ k) (hn : n < b ^ k) :
    compare (fixed b k m) (fixed b k n) = compare m n := by
  induction k generalizing m n with
  | zero =>
    rw [Nat.pow_zero, Nat.lt_one_iff] at hm hn
    rw [hm, hn]
    rfl
  | succ k ih =>
    rw [Nat.pow_succ, Nat.mul_comm] at hm hn
    have front : compare (fixed b k (m / b)) (fixed b k (n / b)) = compare (m / b) (n / b) :=
      ih (Nat.div_lt_of_lt_mul hm) (Nat.div_lt_of_lt_mul hn)
    rw [fixed, fixed, compare_concat _ _ (by simp), front, compare_div_mod]

/-- Digits may be written as anything that is ordered like them. -/
theorem compare_map {α β : Type} [Ord α] [Ord β] {f : α → β} {xs ys : List α}
    (kept : ∀ x ∈ xs, ∀ y ∈ ys, compare (f x) (f y) = compare x y) :
    compare (xs.map f) (ys.map f) = compare xs ys := by
  induction xs generalizing ys with
  | nil => cases ys <;> rfl
  | cons x xs ih =>
    cases ys with
    | nil => rfl
    | cons y ys =>
      have first := kept x List.mem_cons_self y List.mem_cons_self
      have later : compare (xs.map f) (ys.map f) = compare xs ys :=
        ih fun a ha b hb => kept a (List.mem_cons_of_mem x ha) b (List.mem_cons_of_mem y hb)
      rw [List.map_cons, List.map_cons, List.compare_cons_cons, List.compare_cons_cons, first,
        later]

/-! ## Numerals without leading zeros -/

theorem digitChar_inj : ∀ m < 16, ∀ n < 16, Nat.digitChar m = Nat.digitChar n → m = n := by
  decide

theorem value_pos {b d : Nat} {ds : List Nat} (base : 0 < b) (lead : 0 < d) :
    0 < value b (d :: ds) := by
  induction ds using List.reverseRecOn with
  | nil => simpa [value] using lead
  | append_singleton ds e ih =>
    rw [← List.cons_append, value_concat]
    exact Nat.add_pos_left (Nat.mul_pos ih base) e

/-- Digits are those that their number is written with, unless a zero stands before others. -/
theorem toDigits_value {b d : Nat} {ds : List Nat} (base : 1 < b)
    (small : ∀ e ∈ d :: ds, e < b) (lead : d = 0 → ds = []) :
    Nat.toDigits b (value b (d :: ds)) = (d :: ds).map Nat.digitChar := by
  induction ds using List.reverseRecOn with
  | nil =>
    have single : value b [d] = d := by simp [value]
    rw [single, Nat.toDigits_of_lt_base (small d List.mem_cons_self)]
    rfl
  | append_singleton ds e ih =>
    have noZero : d ≠ 0 := fun zero => by simpa using lead zero
    have front : Nat.toDigits b (value b (d :: ds)) = (d :: ds).map Nat.digitChar := by
      refine ih (fun c member => small c ?_) fun zero => absurd zero noZero
      rw [← List.cons_append]
      exact List.mem_append_left [e] member
    have last : e < b := small e (by simp)
    have positive : 0 < value b (d :: ds) :=
      value_pos (by omega) (Nat.pos_iff_ne_zero.mpr noZero)
    rw [← List.cons_append, value_concat, Nat.mul_comm,
      ← Nat.toDigits_append_toDigits base positive last, front, Nat.toDigits_of_lt_base last,
      List.map_append]
    rfl

/-- A number is written with digits that denote it, none of them a zero before others. -/
theorem exists_toDigits {b : Nat} (base : 1 < b) (n : Nat) :
    ∃ d ds, (∀ e ∈ d :: ds, e < b) ∧ (d = 0 → ds = []) ∧ value b (d :: ds) = n ∧
      Nat.toDigits b n = (d :: ds).map Nat.digitChar := by
  induction n using Nat.strongRecOn with
  | ind n ih =>
    rw [Nat.toDigits_eq_if base]
    split
    · rename_i small
      refine ⟨n, [], ?_, fun _ => rfl, ?_, rfl⟩
      · intro e member
        rwa [List.mem_singleton.mp member]
      · simp [value]
    · rename_i large
      obtain ⟨d, ds, small, lead, quotient, front⟩ := ih (n / b) (Nat.div_lt_self (by omega) base)
      have positive : 0 < n / b := Nat.div_pos (by omega) (by omega)
      refine ⟨d, ds ++ [n % b], ?_, ?_, ?_, ?_⟩
      · intro e member
        rw [← List.cons_append, List.mem_append, List.mem_singleton] at member
        rcases member with member | rfl
        · exact small e member
        · exact Nat.mod_lt n (by omega)
      · intro zero
        rw [lead zero, zero] at quotient
        simp [value] at quotient
        omega
      · rw [← List.cons_append, value_concat, quotient, Nat.mul_comm, Nat.div_add_mod]
      · rw [front, ← List.cons_append, List.map_append]
        rfl

/-- The digits of no other number than zero begin with a zero. -/
theorem eq_zero_of_head?_toDigits {b n : Nat} (base : 1 < b) (most : b ≤ 16)
    (zero : (Nat.toDigits b n).head? = some '0') : n = 0 := by
  obtain ⟨d, ds, small, lead, denoted, written⟩ := exists_toDigits base n
  rw [written] at zero
  have below : d < 16 := Nat.lt_of_lt_of_le (small d List.mem_cons_self) most
  have none : d = 0 := digitChar_inj d below 0 (by decide) (Option.some.inj zero)
  rw [lead none, none] at denoted
  simpa [value] using denoted.symm

theorem value_replicate_append (b j : Nat) (ds : List Nat) :
    value b (List.replicate j 0 ++ ds) = value b ds := by
  induction j with
  | zero => rfl
  | succ j ih =>
    rw [List.replicate_succ, List.cons_append, ← ih]
    simp [value]

/-- Zeros before the digits of a number give its numeral of any width that has room for them. -/
theorem replicate_append_toDigits {b k n : Nat} (base : 1 < b) (wide : 0 < k) (bound : n < b ^ k) :
    List.replicate (k - (Nat.toDigits b n).length) '0' ++ Nat.toDigits b n =
      (fixed b k n).map Nat.digitChar := by
  obtain ⟨d, ds, small, -, denoted, written⟩ := exists_toDigits base n
  have fits : (Nat.toDigits b n).length ≤ k := (Nat.length_toDigits_le_iff base wide).mpr bound
  rw [written, List.length_map] at fits ⊢
  have width : (List.replicate (k - (d :: ds).length) 0 ++ (d :: ds)).length = k := by
    rw [List.length_append, List.length_replicate]
    omega
  have digits : ∀ e ∈ List.replicate (k - (d :: ds).length) 0 ++ (d :: ds), e < b := by
    intro e member
    rcases List.mem_append.mp member with zero | digit
    · rw [List.eq_of_mem_replicate zero]
      omega
    · exact small e digit
  have numeral := fixed_value digits
  rw [width, value_replicate_append, denoted] at numeral
  rw [numeral, List.map_append, List.map_replicate]
  rfl

theorem mem_toDigits {b n : Nat} {c : Char} (base : 1 < b) (member : c ∈ Nat.toDigits b n) :
    ∃ d < b, c = Nat.digitChar d := by
  obtain ⟨d, ds, small, -, -, written⟩ := exists_toDigits base n
  rw [written] at member
  obtain ⟨e, listed, same⟩ := List.mem_map.mp member
  exact ⟨e, small e listed, same.symm⟩

theorem toDigits_inj {b m n : Nat} (base : 1 < b) (most : b ≤ 16) :
    Nat.toDigits b m = Nat.toDigits b n ↔ m = n := by
  refine ⟨fun same => ?_, fun same => by rw [same]⟩
  induction m using Nat.strongRecOn generalizing n with
  | ind m ih =>
    have low : ∀ k, Nat.toDigits b k ≠ [] := fun k => Nat.toDigits_ne_nil
    rw [Nat.toDigits_eq_if base, Nat.toDigits_eq_if (n := n) base] at same
    split at same <;> split at same
    · rename_i smallM smallN
      exact digitChar_inj m (by omega) n (by omega) (List.singleton_inj.mp same)
    · -- one digit is not two or more
      exact absurd (List.append_eq_singleton_iff.mp same.symm) (by simp [low])
    · exact absurd (List.append_eq_singleton_iff.mp same) (by simp [low])
    · rename_i largeM largeN
      obtain ⟨fronts, lasts⟩ := List.append_inj' same rfl
      have quotients := ih (m / b) (Nat.div_lt_self (by omega) base) fronts
      have remainders := digitChar_inj _ (Nat.lt_of_lt_of_le (Nat.mod_lt m (by omega)) most) _
        (Nat.lt_of_lt_of_le (Nat.mod_lt n (by omega)) most) (List.singleton_inj.mp lasts)
      rw [← Nat.div_add_mod m b, ← Nat.div_add_mod n b, quotients, remainders]

/-- Up to the first character that is no digit, a text determines the number that it begins with. -/
theorem toDigits_append_cons_inj {b m n : Nat} {stop : Char} {xs ys : List Char} (base : 1 < b)
    (most : b ≤ 16) (stops : ∀ d < b, stop ≠ Nat.digitChar d) :
    Nat.toDigits b m ++ stop :: xs = Nat.toDigits b n ++ stop :: ys ↔ m = n ∧ xs = ys := by
  have front : ∀ k zs, (Nat.toDigits b k ++ stop :: zs).takeWhile (· ≠ stop) =
      Nat.toDigits b k := by
    intro k zs
    have digits : ∀ c ∈ Nat.toDigits b k, decide (c ≠ stop) = true := by
      intro c member
      obtain ⟨d, small, rfl⟩ := mem_toDigits base member
      simpa using (stops d small).symm
    rw [List.takeWhile_append_of_pos digits, List.takeWhile_cons_of_neg (by simp),
      List.append_nil]
  constructor
  · intro same
    have fronts := congrArg (List.takeWhile (· ≠ stop)) same
    rw [front, front, toDigits_inj base most] at fronts
    subst fronts
    exact ⟨rfl, (List.cons.inj (List.append_cancel_left same)).2⟩
  · rintro ⟨rfl, rfl⟩
    rfl

end ProtocolIdent.Digits
