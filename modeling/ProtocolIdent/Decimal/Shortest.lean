/-!
# The shortest decimal of a binary number

A finite double stands for all reals that round to it. Among the decimals in that interval the
shortest are those with the fewest digits, and of these the nearest to the number is taken, a tie
going to the even digit. All comparisons are made on natural numbers.
-/
namespace ProtocolIdent

/-- A positive number `m * 2 ^ q`. The gap to the number below it may be half the gap above. -/
structure Binary where
  m : Nat
  q : Int
  narrowBelow : Bool
  deriving DecidableEq, Repr

/-- The magnitude of a finite double. -/
def Binary.ofBits (bits : UInt64) : Binary :=
  let e := ((bits >>> 52) &&& 0x7FF).toNat
  let f := (bits &&& 0xFFFFFFFFFFFFF).toNat
  if e = 0 then { m := f, q := -1074, narrowBelow := false }
  else { m := 0x10000000000000 + f, q := (e : Int) - 1075, narrowBelow := f = 0 ∧ 1 < e }

/-- The decimal `digits * 10 ^ exponent`. -/
structure Decimal where
  digits : Nat
  exponent : Int
  deriving DecidableEq, Repr

/-- Compares `a * 10 ^ i` with `b * 2 ^ j`. -/
def compareScaled (a : Nat) (i : Int) (b : Nat) (j : Int) : Ordering :=
  compare ((a * Nat.pow 10 i.toNat) <<< (-j).toNat) ((b * Nat.pow 10 (-i).toNat) <<< j.toNat)

namespace Binary

/-- Whether a decimal lies among the reals that round to the number; the ends of the interval
round to it when `m` is even. -/
def readsBack (x : Binary) (d : Decimal) : Bool :=
  let low := if x.narrowBelow then 4 * x.m - 1 else 4 * x.m - 2
  let below := compareScaled d.digits d.exponent low (x.q - 2)
  let above := compareScaled d.digits d.exponent (4 * x.m + 2) (x.q - 2)
  let closed := x.m % 2 = 0
  (below = .gt ∨ (closed ∧ below = .eq)) ∧ (above = .lt ∨ (closed ∧ above = .eq))

/-- The number of whole steps of `10 ^ e` in the number. -/
def floorAt (x : Binary) (e : Int) : Nat :=
  ((x.m * Nat.pow 10 (-e).toNat) <<< x.q.toNat) / (Nat.pow 10 e.toNat <<< (-x.q).toNat)

/-- The least `k` for which the number is below `10 ^ k`. -/
def scale (x : Binary) : Int :=
  let whole := x.floorAt 0
  if whole = 0 then -((Nat.toDigits 10 (((1 <<< (-x.q).toNat) - 1) / x.m)).length - 1 : Int)
  else (Nat.toDigits 10 whole).length

/-- The nearer of the two neighbours of the number on the grid of `10 ^ e`, if one reads back. -/
def onGrid? (x : Binary) (e : Int) : Option Decimal :=
  let n := x.floorAt e
  let lower : Decimal := { digits := n, exponent := e }
  let upper : Decimal := { digits := n + 1, exponent := e }
  match x.readsBack lower, x.readsBack upper with
  | true, false => some lower
  | false, true => some upper
  | false, false => none
  | true, true =>
    match compareScaled (2 * n + 1) e (2 * x.m) x.q with
    | .gt => some lower
    | .lt => some upper
    | .eq => if n % 2 = 0 then some lower else some upper

/-- The shortest decimal. Seventeen digits always suffice; failing them the number itself is
written out. -/
def shortest (x : Binary) : Decimal :=
  let k := x.scale
  match (List.range 17).findSome? fun n => x.onGrid? (k - (n + 1 : Nat)) with
  | some d => d
  | none => { digits := (x.m * Nat.pow 5 (-x.q).toNat) <<< x.q.toNat, exponent := min x.q 0 }

end Binary

/-- The digits without trailing zeros and the exponent of the last of them. -/
def Decimal.significant (d : Decimal) : List Char × Int :=
  let cs := (Nat.toDigits 10 d.digits).reverse
  let zeros := (cs.takeWhile (· == '0')).length
  ((cs.drop zeros).reverse, d.exponent + zeros)

end ProtocolIdent
