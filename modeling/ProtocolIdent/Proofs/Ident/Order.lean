import Mathlib.Data.List.Dedup
import Mathlib.Data.List.Sort
import Mathlib.Data.String.Basic
import ProtocolIdent.Ident.Order
import ProtocolIdent.Proofs.Header

/-!
# One order in three forms

Identifiers, their texts and their header fields are in one order: digits of a fixed width are
compared from the most significant one on, and decimal digits come before lower-case letters
(`compare_text`, `compare_field`). There is one ascending list of the members of a list
(`eq_ascending`), so it makes no difference whether identifiers are sorted and then written, or
written and then sorted (`one_order_in_three_forms`).
-/
namespace ProtocolIdent

/-! ## Ascending lists -/

section Ascending

variable {α : Type} [Ord α]

def Before (a b : α) : Prop :=
  compare a b = .lt

theorem before_of_isLE [Std.LawfulEqOrd α] {a b : α} (notAfter : (compare a b).isLE = true)
    (differ : a ≠ b) : Before a b := by
  cases order : compare a b with
  | lt => exact order
  | eq => exact absurd (Std.LawfulEqOrd.eq_of_compare order) differ
  | gt =>
    rw [order] at notAfter
    cases notAfter

variable [Std.TransOrd α]

instance : Std.Irrefl (Before (α := α)) where
  irrefl a before := by
    rw [Before, Std.ReflOrd.compare_self] at before
    cases before

instance : Std.Antisymm (Before (α := α)) where
  antisymm a b first second := by
    rw [Before, Std.OrientedOrd.eq_swap, second] at first
    cases first

theorem pairwise_ascending (l : List α) : (ascending l).Pairwise Before :=
  Std.TreeSet.ordered_toList

theorem isLE_total (a b : α) : ((compare a b).isLE || (compare b a).isLE) = true := by
  rw [Std.OrientedOrd.eq_swap (a := b)]
  cases compare a b <;> rfl

variable [Std.LawfulEqOrd α] [DecidableEq α]

@[simp] theorem mem_ascending {a : α} {l : List α} : a ∈ ascending l ↔ a ∈ l := by
  rw [ascending, Std.TreeSet.mem_toList, Std.TreeSet.mem_ofList, List.contains_iff_mem]

/-- There is one ascending list of some members. -/
theorem eq_ascending {l m : List α} (ordered : m.Pairwise Before)
    (members : ∀ a, a ∈ m ↔ a ∈ l) : m = ascending l :=
  ordered.eq_of_mem_iff (pairwise_ascending l) fun a => by rw [members, mem_ascending]

theorem ascending_congr {l m : List α} (members : ∀ a, a ∈ m ↔ a ∈ l) :
    ascending m = ascending l :=
  eq_ascending (pairwise_ascending m) fun a => by rw [mem_ascending, members]

/-- The ascending list is the sorted list without repetitions. -/
theorem ascending_eq_dedup (l : List α) :
    ascending l = (l.mergeSort fun a b => (compare a b).isLE).dedup := by
  symm
  apply eq_ascending
  · have sorted : (l.mergeSort fun a b => (compare a b).isLE).Pairwise
        fun a b => (compare a b).isLE = true := by
      apply List.pairwise_mergeSort
      · exact fun _ _ _ => Std.TransOrd.isLE_trans
      · exact isLE_total
    have distinct := List.nodup_dedup (l.mergeSort fun a b => (compare a b).isLE)
    refine (distinct.and (sorted.sublist (List.dedup_sublist _))).imp ?_
    rintro a b ⟨differ, notAfter⟩
    exact before_of_isLE notAfter differ
  · intro a
    rw [List.mem_dedup, List.mem_mergeSort]

/-- What is ordered alike can be sorted before or after it is written. -/
theorem map_ascending {β : Type} [Ord β] [Std.TransOrd β] [Std.LawfulEqOrd β] [DecidableEq β]
    {f : α → β} (kept : ∀ a b, compare (f a) (f b) = compare a b) (l : List α) :
    (ascending l).map f = ascending (l.map f) := by
  apply eq_ascending
  · refine List.pairwise_map.mpr ((pairwise_ascending l).imp ?_)
    intro a b before
    rw [Before, kept]
    exact before
  · simp

end Ascending

/-! ## Texts in the order of their characters -/

theorem compare_chars_eq_lt_iff {cs ds : List Char} : compare cs ds = .lt ↔ cs < ds := by
  induction cs generalizing ds with
  | nil => cases ds <;> simp [List.compare_nil_cons]
  | cons c cs ih =>
    cases ds with
    | nil => simp [List.compare_cons_nil]
    | cons d ds =>
      rw [List.compare_cons_cons, Ordering.then_eq_lt, ih, compare_lt_iff_lt, compare_eq_iff_eq,
        List.cons_lt_cons_iff]

theorem compare_toList (s t : String) : compare s.toList t.toList = compare s t := by
  cases order : compare s.toList t.toList with
  | lt =>
    have less := String.lt_iff_toList_lt.mpr (compare_chars_eq_lt_iff.mp order)
    exact (compare_lt_iff_lt.mpr less).symm
  | eq =>
    have same := String.toList_inj.mp (Std.LawfulEqOrd.eq_of_compare order)
    exact (compare_eq_iff_eq.mpr same).symm
  | gt =>
    rw [Std.OrientedOrd.eq_swap, Ordering.swap_eq_gt] at order
    have more := String.lt_iff_toList_lt.mpr (compare_chars_eq_lt_iff.mp order)
    exact (compare_gt_iff_gt.mpr more).symm

theorem isLE_compare_string (s t : String) : (compare s t).isLE = decide (s ≤ t) := by
  rw [Bool.eq_iff_iff, decide_eq_true_eq, ← Ordering.ne_gt_iff_isLE]
  exact compare_le_iff_le

/-! ## Identifiers, texts and fields -/

instance : Std.LawfulEqOrd Ident where
  compare_self {a} := (Std.ReflOrd.compare_self : compare a.value a.value = .eq)
  eq_of_compare {a b} same := by
    have values : a.value = b.value := Std.LawfulEqOrd.eq_of_compare same
    cases a
    cases b
    exact congrArg Ident.mk values

namespace Ident

theorem compare_eq_compare_toNat (a b : Ident) :
    compare a b = compare a.value.toNat b.value.toNat :=
  UInt32.compare_eq_toNat_compare_toNat a.value b.value

/-- Decimal digits come before the letters from `a` to `f`. -/
theorem compare_digitChar : ∀ m < 16, ∀ n < 16,
    compare (Nat.digitChar m) (Nat.digitChar n) = compare m n := by
  decide

theorem compare_digits (a b : Ident) : compare a.digits b.digits = compare a b := by
  have small : ∀ id : Ident, id.value.toNat < 16 ^ digitCount := fun id => id.value.toNat_lt
  rw [digits, digits, Digits.compare_map, Digits.compare_fixed (small a) (small b),
    compare_eq_compare_toNat]
  intro m hm n hn
  exact compare_digitChar m (Digits.mem_fixed_lt (by decide) hm) n
    (Digits.mem_fixed_lt (by decide) hn)

theorem compare_text (a b : Ident) : compare a.text b.text = compare a b := by
  rw [← compare_toList, toList_text, toList_text, List.compare_cons_cons, List.compare_cons_cons,
    Std.ReflOrd.compare_self, Std.ReflOrd.compare_self, compare_digits]
  rfl

theorem compare_byte {m n : Nat} (hm : m < 256) (hn : n < 256) :
    compare (UInt8.ofNat m) (UInt8.ofNat n) = compare m n := by
  rw [UInt8.compare_eq_toNat_compare_toNat, UInt8.toNat_ofNat_of_lt' hm,
    UInt8.toNat_ofNat_of_lt' hn]

theorem compare_field (a b : Ident) : compare a.field b.field = compare a b := by
  have small : ∀ id : Ident, id.value.toNat < 256 ^ fieldSize := fun id => id.value.toNat_lt
  rw [field, field, Digits.compare_map, Digits.compare_fixed (small a) (small b),
    compare_eq_compare_toNat]
  intro m hm n hn
  exact compare_byte (Digits.mem_fixed_lt (by decide) hm) (Digits.mem_fixed_lt (by decide) hn)

theorem map_text_ascending (ids : List Ident) :
    (ascending ids).map text = (ids.map text).mergeSort.dedup := by
  rw [map_ascending compare_text, ascending_eq_dedup]
  simp only [isLE_compare_string]

theorem pairwise_text_ascending (ids : List Ident) :
    ((ascending ids).map text).Pairwise (· < ·) := by
  rw [map_ascending compare_text]
  exact (pairwise_ascending _).imp fun before => compare_lt_iff_lt.mp before

/-- Two identifiers compare as their texts do and as the fields do that are written for them into
any two buffers. So the distinct members of a list in ascending order, written as texts, are the
texts sorted and without repetitions; they ascend strictly, and depend neither on the order of the
list nor on how often it repeats a member. -/
theorem one_order_in_three_forms :
    (∀ a b : Ident, compare a.text b.text = compare a b ∧
      ∀ x y : List UInt8, 4 ≤ x.length → 4 ≤ y.length → ∃ v w,
        Header.write x a = .ok v ∧ Header.write y b = .ok w ∧
          compare (v.buffer.take 4) (w.buffer.take 4) = compare a b) ∧
    (∀ ids : List Ident,
      ascending ids = (ids.mergeSort fun a b => (compare a b).isLE).dedup ∧
      (ascending ids).map text = (ids.map text).mergeSort.dedup ∧
      ((ascending ids).map text).Pairwise (· < ·) ∧
      ∀ others : List Ident, (∀ id, id ∈ others ↔ id ∈ ids) →
        (ascending others).map text = (ascending ids).map text) := by
  constructor
  · intro a b
    refine ⟨compare_text a b, ?_⟩
    intro x y roomX roomY
    have front : ∀ (id : Ident) (rest : List UInt8), (id.field ++ rest).take 4 = id.field :=
      fun id rest => List.take_left' (length_field id)
    refine ⟨_, _, Header.write_of_room a roomX, Header.write_of_room b roomY, ?_⟩
    rw [front, front, compare_field]
  · intro ids
    refine ⟨ascending_eq_dedup ids, map_text_ascending ids, pairwise_text_ascending ids, ?_⟩
    intro others members
    rw [ascending_congr members]

/-- Numbers of one digit and of three, over different buffers, and in a list that repeats one. -/
theorem order_of_padded_idents :
    (∃ v w, Header.write [0xff, 0xff, 0xff, 0xff, 0x01] ⟨0xf⟩ = .ok v ∧
      Header.write [0, 0, 0, 0] ⟨0x100⟩ = .ok w ∧
      compare (v.buffer.take 4) (w.buffer.take 4) = .lt) ∧
    (ascending [⟨0x100⟩, ⟨0xf⟩, ⟨0x100⟩]).map text = (ascending [⟨0xf⟩, ⟨0x100⟩]).map text := by
  constructor
  · exact (one_order_in_three_forms.1 ⟨0xf⟩ ⟨0x100⟩).2 [0xff, 0xff, 0xff, 0xff, 0x01]
      [0, 0, 0, 0] (by decide) (by decide)
  · refine (one_order_in_three_forms.2 [⟨0xf⟩, ⟨0x100⟩]).2.2.2 [⟨0x100⟩, ⟨0xf⟩, ⟨0x100⟩] ?_
    intro id
    simp only [List.mem_cons, List.not_mem_nil, or_false]
    tauto

end Ident

end ProtocolIdent
