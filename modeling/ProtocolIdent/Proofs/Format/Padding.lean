import ProtocolIdent.Format.Spec
import ProtocolIdent.Proofs.Ident.Text

/-!
# Numbers padded to a width

Flags do not change what a number is written with, its sign, the mark of its base and its digits;
they only put padding in front of these, behind them, or as zeros before the digits
(`number_eq_around`). How much goes where depends on the flags and on how long the number is, and
on nothing else (`pads_padding`), so the two hexadecimal forms of an identifier are padded alike.
-/
namespace ProtocolIdent.Format

/-- What a number is padded with: characters in front of it, zeros before its digits, and
characters behind it. -/
structure Padding where
  before : List Char := []
  zeros : List Char := []
  after : List Char := []

namespace Padding

def size (p : Padding) : Nat :=
  p.before.length + p.zeros.length + p.after.length

/-- The padding around what stands before the digits and the digits. -/
def around (p : Padding) (lead digits : List Char) : List Char :=
  p.before ++ lead ++ p.zeros ++ digits ++ p.after

end Padding

/-- A fill of some length divided around content on a side. -/
def Align.padding (fill : Char) (room : Nat) : Align → Padding
  | left => { after := List.replicate room fill }
  | right => { before := List.replicate room fill }
  | centre =>
    { before := List.replicate (room / 2) fill, after := List.replicate (room - room / 2) fill }

namespace Align

variable (side : Align) (fill : Char) (room : Nat)

theorem size_padding : (side.padding fill room).size = room := by
  cases side with
  | left => simp [padding, Padding.size]
  | right => simp [padding, Padding.size]
  | centre =>
    simp only [padding, Padding.size, List.length_replicate, List.length_nil]
    omega

theorem zeros_padding : (side.padding fill room).zeros = [] := by
  cases side <;> rfl

theorem eq_fill_of_mem_padding {c : Char}
    (member : c ∈ (side.padding fill room).before ++ (side.padding fill room).after) :
    c = fill := by
  cases side with
  | left => exact List.eq_of_mem_replicate member
  | right => exact List.eq_of_mem_replicate (List.append_nil _ ▸ member)
  | centre =>
    rcases List.mem_append.mp member with front | back
    · exact List.eq_of_mem_replicate front
    · exact List.eq_of_mem_replicate back

end Align

namespace Spec

/-- What flags ask for around a number of some length: zeros before the digits, or else the fill
on the side that the alignment leaves free, which is the front if nothing is said; around a
centred number the fill behind is as long as the one in front, or longer by one. -/
structure Pads (spec : Spec) (length : Nat) (p : Padding) : Prop where
  size : p.size + length = max spec.width length
  zeros : spec.zero = true → p.before = [] ∧ p.after = [] ∧ ∀ c ∈ p.zeros, c = '0'
  fill : spec.zero = false → p.zeros = [] ∧ ∀ c ∈ p.before ++ p.after, c = spec.fill
  left : spec.zero = false → spec.align = some .left → p.before = []
  right : spec.zero = false → spec.align = none ∨ spec.align = some .right → p.after = []
  centre : spec.zero = false → spec.align = some .centre →
    p.before.length ≤ p.after.length ∧ p.after.length ≤ p.before.length + 1

/-- The padding that flags ask for around a number of some length. -/
def padding (spec : Spec) (length : Nat) : Padding :=
  if spec.zero then { zeros := List.replicate (spec.width - length) '0' }
  else (spec.align.getD .right).padding spec.fill (spec.width - length)

theorem padding_of_zero {spec : Spec} (zero : spec.zero = true) (length : Nat) :
    spec.padding length = { zeros := List.replicate (spec.width - length) '0' } :=
  if_pos zero

theorem padding_of_fill {spec : Spec} (zero : spec.zero = false) (length : Nat) :
    spec.padding length = (spec.align.getD .right).padding spec.fill (spec.width - length) :=
  if_neg (Bool.eq_false_iff.mp zero)

theorem pads_padding (spec : Spec) (length : Nat) : spec.Pads length (spec.padding length) := by
  cases zero : spec.zero with
  | true =>
    rw [padding_of_zero zero]
    constructor
    case size =>
      simp only [Padding.size, List.length_replicate, List.length_nil]
      omega
    case zeros => exact fun _ => ⟨rfl, rfl, fun c => List.eq_of_mem_replicate⟩
    all_goals
      intro other
      rw [zero] at other
      cases other
  | false =>
    rw [padding_of_fill zero]
    constructor
    case size =>
      rw [Align.size_padding]
      omega
    case zeros =>
      intro other
      rw [zero] at other
      cases other
    case fill =>
      intro _
      exact ⟨Align.zeros_padding _ _ _, fun c => Align.eq_fill_of_mem_padding _ _ _⟩
    case left =>
      intro _ side
      rw [side]
      rfl
    case right =>
      intro _ side
      rcases side with side | side <;>
      · rw [side]
        rfl
    case centre =>
      intro _ side
      rw [side]
      simp only [Option.getD_some, Align.padding, List.length_replicate]
      omega

/-- A number is what it is written with and the padding that the flags ask for. -/
theorem number_eq_around (spec : Spec) (radix : Radix) (n : Nat) :
    spec.number radix n =
      (spec.padding ((spec.lead radix).length + (radix.digits n).length)).around
        (spec.lead radix) (radix.digits n) := by
  unfold number padding
  split
  · simp [Padding.around]
  · generalize spec.align.getD .right = side
    cases side <;> simp [Padding.around, Align.padding]

end Spec

end ProtocolIdent.Format
