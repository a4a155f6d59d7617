import ProtocolIdent.Hex
import ProtocolIdent.Ident.Basic
import ProtocolIdent.Ident.Error

/-!
# The text of an identifier

An identifier is written as `0x` and exactly eight lower-case hexadecimal digits. The digits of a
text that is read may be of either case; the `x` is lower case.
-/
namespace ProtocolIdent.Ident

def digitCount : Nat := 8

/-- The eight digits, most significant first. -/
def digits (id : Ident) : List Char :=
  (Digits.fixed 16 digitCount id.value.toNat).map Nat.digitChar

def text (id : Ident) : String :=
  String.ofList ('0' :: 'x' :: id.digits)

/-- The identifier that eight hexadecimal digits denote. -/
def ofDigits? (cs : List Char) : Option Ident :=
  if cs.length = digitCount then
    (cs.mapM Hex.value?).map fun ds => ⟨UInt32.ofNat (Digits.value 16 ds)⟩
  else none

/-- Reads a text; the error carries the whole text. -/
def ofText (s : String) : Except IdentError Ident :=
  match s.toList with
  | '0' :: 'x' :: cs =>
    match ofDigits? cs with
    | some id => .ok id
    | none => .error (.malformed s)
  | _ => .error (.malformed s)

instance : ToString Ident := ⟨text⟩

end ProtocolIdent.Ident
