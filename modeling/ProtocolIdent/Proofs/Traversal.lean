import Mathlib.Data.List.Forall2
import ProtocolIdent.Proofs.Json.Ident

/-!
# Lists that are read up to the first error

A list is read member by member: it is read whole exactly if each member is (`mapM_eq_ok_iff`),
and otherwise the error is that about the first member that is not (`mapM_eq_error_of_exists`).
-/
namespace ProtocolIdent

section Traversal

variable {ε α β : Type} {f : α → Except ε β}

/-- A list is read whole exactly if each member is read. -/
theorem mapM_eq_ok_iff {xs : List α} {ys : List β} :
    xs.mapM f = .ok ys ↔ List.Forall₂ (fun x y => f x = .ok y) xs ys := by
  induction xs generalizing ys with
  | nil =>
    rw [List.forall₂_nil_left_iff]
    constructor
    · intro read
      exact (Except.ok.inj read).symm
    · rintro rfl
      rfl
  | cons x xs ih =>
    rw [List.mapM_cons, List.forall₂_cons_left_iff]
    constructor
    · intro read
      obtain ⟨y, first, read⟩ := Json.exists_of_bind_eq_ok read
      obtain ⟨later, rest, same⟩ := Json.exists_of_bind_eq_ok read
      exact ⟨y, later, first, ih.mp rest, (Except.ok.inj same).symm⟩
    · rintro ⟨y, later, first, rest, rfl⟩
      rw [first, ih.mpr rest]
      rfl

/-- The error about a list is the error about its first member that is not read. -/
theorem mapM_eq_error_of_exists {xs : List α} (refused : ∃ x ∈ xs, ∀ y, f x ≠ .ok y) :
    ∃ before x after e, xs = before ++ x :: after ∧ (∀ a ∈ before, ∃ y, f a = .ok y) ∧
      f x = .error e ∧ xs.mapM f = .error e := by
  induction xs with
  | nil =>
    obtain ⟨x, member, -⟩ := refused
    cases member
  | cons x xs ih =>
    cases first : f x with
    | error e =>
      refine ⟨[], x, xs, e, rfl, fun a member => ?_, first, ?_⟩
      · cases member
      · rw [List.mapM_cons, first]
        rfl
    | ok y =>
      obtain ⟨bad, member, bads⟩ := refused
      have later : bad ∈ xs := by
        rcases List.mem_cons.mp member with rfl | later
        · exact absurd first (bads y)
        · exact later
      obtain ⟨before, bad, after, e, rfl, read, error, stopped⟩ := ih ⟨bad, later, bads⟩
      refine ⟨x :: before, bad, after, e, rfl, fun a listed => ?_, error, ?_⟩
      · rcases List.mem_cons.mp listed with rfl | listed
        · exact ⟨y, first⟩
        · exact read a listed
      · rw [List.mapM_cons, first, stopped]
        rfl

end Traversal

theorem exists_forall₂ {α β : Type} {r : α → β → Prop} {xs : List α}
    (each : ∀ x ∈ xs, ∃ y, r x y) : ∃ ys, List.Forall₂ r xs ys := by
  induction xs with
  | nil => exact ⟨[], .nil⟩
  | cons x xs ih =>
    obtain ⟨y, first⟩ := each x List.mem_cons_self
    obtain ⟨ys, later⟩ := ih fun a member => each a (List.mem_cons_of_mem x member)
    exact ⟨y :: ys, .cons first later⟩

end ProtocolIdent
