import Std.Data.TreeSet
import ProtocolIdent.Ident.Basic

/-!
# The order of identifiers

Identifiers are ordered as numbers.
-/
namespace ProtocolIdent

instance : Ord Ident where
  compare a b := compare a.value b.value

instance : Std.TransOrd Ident where
  eq_swap {a b} := (Std.OrientedOrd.eq_swap : compare a.value b.value = _)
  isLE_trans {a _ c} h₁ h₂ :=
    (Std.TransOrd.isLE_trans h₁ h₂ : (compare a.value c.value).isLE = true)

/-- The distinct members of a list in ascending order. -/
def ascending {α : Type} [Ord α] (l : List α) : List α :=
  (Std.TreeSet.ofList l).toList

end ProtocolIdent
