import ProtocolIdent.Text.Printable

/-!
# Quoted text

Messages quote the text they are about: between double quotes every character that is not
printable, and every quote and backslash, is written as an escape, so that a message stays on
one line and shows where the text ends. NUL, tab, line feed and carriage return have short
escapes; the others are written `\u{h}` with the fewest lower-case hexadecimal digits.
-/
namespace ProtocolIdent.Text

/-- The letter of a short escape. -/
def shortEscape? : Char → Option Char
  | '\x00' => some '0'
  | '\t' => some 't'
  | '\n' => some 'n'
  | '\r' => some 'r'
  | '"' => some '"'
  | '\\' => some '\\'
  | _ => none

/-- A character as it is written between quotes. -/
def quoteChar (c : Char) : List Char :=
  match shortEscape? c with
  | some letter => ['\\', letter]
  | none =>
    if isPrintable c then [c]
    else ['\\', 'u', '\x7b'] ++ Nat.toDigits 16 c.toNat ++ ['\x7d']

/-- A text between quotes. -/
def quote (text : String) : String :=
  String.ofList ('"' :: text.toList.flatMap quoteChar ++ ['"'])

end ProtocolIdent.Text
