import ProtocolIdent.Hex
import ProtocolIdent.Ident.Text

/-!
# Formatted output

A `Spec` is what a placeholder asks for: a form, and flags on fill, alignment, sign, base mark,
zeros and width. The text form of an identifier has a fixed width and takes no flag. The
hexadecimal forms write the number with all flags, and the structural forms write the number
between `ProtoId(` and `)`, with all flags on the number.
-/
namespace ProtocolIdent.Format

/-- The side of the padded field on which the content stands. -/
inductive Align where
  | left | centre | right
  deriving DecidableEq, Repr

inductive Radix where
  | decimal | lowerHex | upperHex
  deriving DecidableEq, Repr

/-- The forms of an identifier: its text, the number in hexadecimal, and its structure around
the number in a radix. -/
inductive Form where
  | text
  | number (radix : Radix)
  | structural (radix : Radix)
  deriving DecidableEq, Repr

structure Spec where
  fill : Char := ' '
  align : Option Align := none
  plus : Bool := false
  alternate : Bool := false
  zero : Bool := false
  width : Nat := 0
  form : Form := .text
  deriving DecidableEq, Repr

/-- The digits of a number without leading zeros. -/
def Radix.digits : Radix → Nat → List Char
  | decimal, n => Nat.toDigits 10 n
  | lowerHex, n => Hex.minimal n
  | upperHex, n => (Hex.minimal n).map Char.toUpper

/-- The mark before the digits when the base is to be shown. -/
def Radix.mark : Radix → List Char
  | decimal => []
  | _ => ['0', 'x']

namespace Spec

/-- Sign and base mark. -/
def lead (spec : Spec) (radix : Radix) : List Char :=
  (if spec.plus then ['+'] else []) ++ (if spec.alternate then radix.mark else [])

/-- A number padded to the width: by zeros before the digits, or else by the fill around sign,
mark and digits, which stand right unless told otherwise; of an odd fill around a centred number
the greater half stands behind. -/
def number (spec : Spec) (radix : Radix) (n : Nat) : List Char :=
  let lead := spec.lead radix
  let digits := radix.digits n
  let room := spec.width - (lead.length + digits.length)
  if spec.zero then lead ++ List.replicate room '0' ++ digits
  else match spec.align.getD .right with
    | .left => lead ++ digits ++ List.replicate room spec.fill
    | .right => List.replicate room spec.fill ++ lead ++ digits
    | .centre =>
      List.replicate (room / 2) spec.fill ++ lead ++ digits
        ++ List.replicate (room - room / 2) spec.fill

/-- Moves every line in by four spaces; the flag tells whether a line begins here. -/
def indent : Bool → List Char → List Char
  | _, [] => []
  | begins, c :: cs =>
    (if begins then List.replicate 4 ' ' else []) ++ c :: indent (c == '\n') cs

/-- An identifier in the form and with the flags of a placeholder. -/
def render (spec : Spec) (id : Ident) : String :=
  let n := id.value.toNat
  match spec.form with
  | .text => id.text
  | .number radix => String.ofList (spec.number radix n)
  | .structural radix =>
    if spec.alternate then
      "ProtoId(\n" ++ String.ofList (indent true (spec.number radix n ++ [',', '\n'])) ++ ")"
    else "ProtoId(" ++ String.ofList (spec.number radix n) ++ ")"

end Spec

end ProtocolIdent.Format
