import ProtocolIdent.Session

/-!
# Windows on a buffer

Both ends of a window are cut to the buffer, so a window is never longer than what is left of the
buffer behind its first place (`slice_eq`). When the front of a window is exchanged for as many bytes, the
buffer changes at these places and nowhere else (`getElem?_replace_front`).
-/
namespace ProtocolIdent.Window

variable (w : Window)

theorem first_le (size : Nat) : w.first size ≤ size :=
  Nat.min_le_right _ _

theorem first_le_stop (size : Nat) : w.first size ≤ w.stop size := by
  have inside := w.first_le size
  unfold stop
  split <;> omega

theorem stop_le (size : Nat) : w.stop size ≤ size := by
  unfold stop
  split
  · exact Nat.min_le_right _ _
  · exact Nat.le_refl _

@[simp] theorem length_slice (buffer : List UInt8) :
    (w.slice buffer).length = w.stop buffer.length - w.first buffer.length := by
  rw [slice, List.length_drop, List.length_take, Nat.min_eq_left (w.stop_le _)]

theorem stop_eq (buffer : List UInt8) :
    w.stop buffer.length = w.first buffer.length + (w.slice buffer).length := by
  have := w.first_le_stop buffer.length
  rw [length_slice]
  omega

/-- A window shows the bytes from its start on, as many as it is long. -/
theorem slice_eq (buffer : List UInt8) :
    w.slice buffer = (buffer.drop w.start).take (w.length.getD buffer.length) := by
  rw [slice, List.drop_take]
  by_cases inside : w.start ≤ buffer.length
  · have first : w.first buffer.length = w.start := Nat.min_eq_left inside
    rw [first, List.take_eq_take_iff, List.length_drop, stop, first]
    cases w.length with
    | none =>
      dsimp only [Option.getD_none]
      omega
    | some n =>
      dsimp only [Option.getD_some]
      omega
  · have behind := Nat.le_of_not_le inside
    have first : w.first buffer.length = buffer.length := Nat.min_eq_right behind
    rw [first, List.drop_length, List.drop_of_length_le behind, List.take_nil, List.take_nil]

/-- What is left of a window behind its front, and what stands behind the window, are together
what stands behind the front. -/
theorem drop_slice_append {buffer : List UInt8} {n : Nat} (room : n ≤ (w.slice buffer).length) :
    (w.slice buffer).drop n ++ buffer.drop (w.stop buffer.length) =
      buffer.drop (w.first buffer.length + n) := by
  rw [length_slice] at room
  have uncut : w.first buffer.length + n ≤ w.stop buffer.length := by
    have := w.first_le_stop buffer.length
    omega
  have inside : w.first buffer.length + n ≤ (buffer.take (w.stop buffer.length)).length := by
    rw [List.length_take]
    have := w.stop_le buffer.length
    omega
  rw [slice, List.drop_drop, ← List.drop_append_of_le_length inside, List.take_append_drop]

theorem replace_front {buffer front : List UInt8}
    (room : front.length ≤ (w.slice buffer).length) :
    w.replace buffer (front ++ (w.slice buffer).drop front.length) =
      buffer.take (w.first buffer.length) ++ front ++
        buffer.drop (w.first buffer.length + front.length) := by
  rw [replace, List.append_assoc, List.append_assoc, w.drop_slice_append room, List.append_assoc]

theorem length_replace_front {buffer front : List UInt8}
    (room : front.length ≤ (w.slice buffer).length) :
    (w.replace buffer (front ++ (w.slice buffer).drop front.length)).length = buffer.length := by
  have inside := w.first_le buffer.length
  have ends := w.stop_le buffer.length
  rw [length_slice] at room
  rw [replace_front w (by rwa [length_slice])]
  simp only [List.length_append, List.length_take, List.length_drop]
  omega

/-- The bytes of the new front stand in their order from the first place of the window on; every
other place keeps its byte. -/
theorem getElem?_replace_front {buffer front : List UInt8}
    (room : front.length ≤ (w.slice buffer).length) (p : Nat) :
    (w.replace buffer (front ++ (w.slice buffer).drop front.length))[p]? =
      if w.first buffer.length ≤ p ∧ p < w.first buffer.length + front.length then
        front[p - w.first buffer.length]?
      else buffer[p]? := by
  have inside := w.first_le buffer.length
  have start : (buffer.take (w.first buffer.length)).length = w.first buffer.length := by
    rw [List.length_take, Nat.min_eq_left inside]
  rw [replace_front w room, List.append_assoc]
  by_cases before : p < w.first buffer.length
  · rw [List.getElem?_append_left (by rw [start]; exact before), List.getElem?_take_of_lt before,
      if_neg (by omega)]
  · rw [List.getElem?_append_right (by rw [start]; omega), start]
    by_cases within : p < w.first buffer.length + front.length
    · rw [List.getElem?_append_left (by omega), if_pos ⟨by omega, within⟩]
    · have behind : w.first buffer.length + front.length +
          (p - w.first buffer.length - front.length) = p := by omega
      rw [List.getElem?_append_right (by omega), List.getElem?_drop, behind, if_neg (by omega)]

end ProtocolIdent.Window
