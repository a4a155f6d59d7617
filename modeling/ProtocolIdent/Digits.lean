/-!
# Fixed-width positional numerals

`Digits.fixed b k n` are the last `k` digits of `n` in base `b`, most significant first, and
`Digits.value b` reads digits back. Identifier texts (base 16, eight digits) and header fields
(base 256, four digits) are both written and read through this pair.
-/
namespace ProtocolIdent.Digits

/-- The last `k` base-`b` digits of `n`, most significant first. -/
def fixed (b : Nat) : Nat → Nat → List Nat
  | 0, _ => []
  | k + 1, n => fixed b k (n / b) ++ [n % b]

/-- The number that digits denote, most significant first. -/
def value (b : Nat) (ds : List Nat) : Nat :=
  ds.foldl (fun n d => n * b + d) 0

@[simp] theorem length_fixed (b k n : Nat) : (fixed b k n).length = k := by
  induction k generalizing n with
  | zero => rfl
  | succ k ih => simp [fixed, ih]

theorem mem_fixed_lt {b k n d : Nat} (hb : 0 < b) (h : d ∈ fixed b k n) : d < b := by
  induction k generalizing n with
  | zero => simp [fixed] at h
  | succ k ih =>
    rw [fixed, List.mem_append, List.mem_singleton] at h
    rcases h with h | rfl
    · exact ih h
    · exact Nat.mod_lt _ hb

@[simp] theorem value_nil (b : Nat) : value b [] = 0 := rfl

/-- A last digit is added to `b` times what stands before it. -/
@[simp] theorem value_concat (b : Nat) (ds : List Nat) (d : Nat) :
    value b (ds ++ [d]) = value b ds * b + d := by
  simp [value, List.foldl_append]

end ProtocolIdent.Digits
