import ProtocolIdent.Decimal.Shortest

/-!
# Numbers of JSON documents

A number is a whole number of 64 bits, or a double. Doubles are written with the fewest digits
that read back: positionally, and always with a point, from `0.00001` to below `10 ^ 16`, and
otherwise with an exponent, which always has its sign.
-/
namespace ProtocolIdent.Json

/-- A number: whole, or a finite double. -/
inductive Number where
  | whole (n : Int)
  | double (x : Float)

/-- An exponent with its sign and the fewest digits. -/
def exponentText (n : Int) : List Char :=
  (if n < 0 then '-' else '+') :: Nat.toDigits 10 n.natAbs

/-- A decimal laid out by where its point falls, counted from before the first digit. -/
def layout (digits : List Char) (exponent : Int) : List Char :=
  let point := digits.length + exponent
  if 0 ≤ exponent ∧ point ≤ 16 then
    digits ++ List.replicate exponent.toNat '0' ++ ['.', '0']
  else if 0 < point ∧ point ≤ 16 then
    digits.take point.toNat ++ '.' :: digits.drop point.toNat
  else if -5 < point ∧ point ≤ 0 then
    '0' :: '.' :: List.replicate (-point).toNat '0' ++ digits
  else
    let mantissa := match digits with
      | d :: e :: ds => d :: '.' :: e :: ds
      | ds => ds
    mantissa ++ 'e' :: exponentText (point - 1)

/-- The sign of a zero is kept. -/
def doubleText (x : Float) : String :=
  let bits := x.toBits
  let sign := if bits >>> 63 = 0 then [] else ['-']
  let magnitude := Binary.ofBits bits
  if magnitude.m = 0 then String.ofList (sign ++ ['0', '.', '0'])
  else
    let (digits, exponent) := magnitude.shortest.significant
    String.ofList (sign ++ layout digits exponent)

def Number.text : Number → String
  | whole n => toString n
  | double x => doubleText x

/-- A number as it is spelled: sign, whole digits, digits after a point, and a signed exponent. -/
structure Numeral where
  negative : Bool := false
  wholeDigits : List Nat
  fraction : Option (List Nat) := none
  exponent : Option Int := none

/-- Appends digits to a significand as long as it stays below `2 ^ 64`. The second component
counts the digits that were left out. -/
def absorb : Nat → List Nat → Nat × Nat
  | s, [] => (s, 0)
  | s, d :: ds => if s * 10 + d < UInt64.size then absorb (s * 10 + d) ds else (s, ds.length + 1)

/-- A double divided by a power of ten. -/
def scaleDown (x : Float) (n : Nat) : Float :=
  if n ≤ 308 then x / Float.ofScientific 1 false n
  else if x == 0 then x
  else scaleDown (x / Float.ofScientific 1 false 308) (n - 308)
termination_by n

/-- A significand times a power of ten, unless it is too large. -/
def scaled? (significand : Nat) (exponent : Int) : Option Float :=
  let x := (UInt64.ofNat significand).toFloat
  if exponent < 0 then some (scaleDown x exponent.natAbs)
  else if exponent ≤ 308 then
    let y := x * Float.ofScientific 1 false exponent.natAbs
    if y.isInf then none else some y
  else if x == 0 then some x
  else none

/-- The value of a numeral. It is whole when it is spelled without point and exponent and fits 64
bits, a minus sign counting as one of them; a negative zero is a double. -/
def Numeral.value? (numeral : Numeral) : Option Number :=
  let (whole, dropped) := absorb 0 numeral.wholeDigits
  match numeral.fraction, numeral.exponent with
  | none, none =>
    if dropped = 0 ∧ numeral.negative = false then some (.whole whole)
    else if dropped = 0 ∧ 0 < whole ∧ whole ≤ 0x8000000000000000 then some (.whole (-whole))
    else (scaled? whole dropped).map (signed numeral.negative)
  | fraction, exponent =>
    let places := fraction.getD []
    let (significand, ignored) := absorb whole places
    let shift := (dropped : Int) - (places.length - ignored : Nat) + exponent.getD 0
    (scaled? significand shift).map (signed numeral.negative)
where
  /-- A double with its sign. -/
  signed (negative : Bool) (x : Float) : Number :=
    .double (if negative then -x else x)

end ProtocolIdent.Json
