import ProtocolIdent.Digits
import ProtocolIdent.Json.Number

/-!
# JSON values and their compact text

Values are written without blanks. Inside a string the quote, the backslash and the control
characters are escaped, those that have a letter by their letter; all else stands for itself.
-/
namespace ProtocolIdent

/-- A JSON value; the members of an object are in the order of the text. -/
inductive Json where
  | null
  | bool (b : Bool)
  | number (n : Json.Number)
  | string (s : String)
  | array (elements : List Json)
  | object (members : List (String × Json))

namespace Json

/-- The letter that stands for a character after a backslash. -/
def escapeLetter? : Char → Option Char
  | '"' => some '"'
  | '\\' => some '\\'
  | '\x08' => some 'b'
  | '\x0c' => some 'f'
  | '\n' => some 'n'
  | '\r' => some 'r'
  | '\t' => some 't'
  | _ => none

/-- A character as it is written inside a string. -/
def escape (c : Char) : List Char :=
  match escapeLetter? c with
  | some letter => ['\\', letter]
  | none =>
    if c.toNat < 0x20 then
      ['\\', 'u'] ++ (Digits.fixed 16 4 c.toNat).map Nat.digitChar
    else [c]

def quote (s : String) : String :=
  String.ofList ('"' :: s.toList.flatMap escape ++ ['"'])

mutual

def compact : Json → String
  | null => "null"
  | bool true => "true"
  | bool false => "false"
  | number n => n.text
  | string s => quote s
  | array elements => "[" ++ ",".intercalate (compactElements elements) ++ "]"
  | object members => "\x7b" ++ ",".intercalate (compactMembers members) ++ "\x7d"

def compactElements : List Json → List String
  | [] => []
  | v :: vs => compact v :: compactElements vs

def compactMembers : List (String × Json) → List String
  | [] => []
  | (key, v) :: rest => (quote key ++ ":" ++ compact v) :: compactMembers rest

end

def ofNat (n : Nat) : Json := number (.whole n)

/-- The member of an object with a key, the last one if there are several. -/
def member? : Json → String → Option Json
  | object members, key => (members.reverse.find? fun m => m.1 == key).map (·.2)
  | _, _ => none

end Json

end ProtocolIdent
