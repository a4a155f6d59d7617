import ProtocolIdent.Ident.Derive
import ProtocolIdent.Json.Document

/-!
# Identifiers in JSON documents

An identifier is written as the string of its text, and only a string is read as one. Whatever
way the string comes, it is read by `Ident.ofText`.
-/
namespace ProtocolIdent.Json

/-- What was found in the place of something else. -/
inductive Found where
  | null
  | bool (b : Bool)
  | number (n : Number)
  | string (s : String)
  | bytes
  | sequence
  | map

def Found.phrase : Found → String
  | null => "null"
  | bool true => "boolean `true`"
  | bool false => "boolean `false`"
  | number (.whole n) => "integer `" ++ toString n ++ "`"
  | number (.double x) => "floating point `" ++ doubleText x ++ "`"
  | string s => "string " ++ Text.quote s
  | bytes => "byte array"
  | sequence => "sequence"
  | map => "map"

/-- What a token shows of the value that it begins. -/
def Token.found : Token → Found
  | null => .null
  | bool b => .bool b
  | number n => .number n
  | string s => .string s
  | openArray => .sequence
  | openObject => .map

def found : Json → Found
  | null => .null
  | bool b => .bool b
  | number n => .number n
  | string s => .string s
  | array _ => .sequence
  | object _ => .map

/-- What a place asks for. -/
inductive Expected where
  | string
  | word32
  | map
  deriving DecidableEq, Repr

def Expected.phrase : Expected → String
  | string => "a string"
  | word32 => "u32"
  | map => "a map"

/-- Why a document that could be read does not hold what was asked for: a string is no
identifier, a value is of another type, or it is of the type and out of range. -/
inductive DataError where
  | ident (cause : IdentError)
  | wrongType (found : Found) (expected : Expected)
  | wrongValue (found : Found) (expected : Expected)

def DataError.message : DataError → String
  | ident cause => cause.message
  | wrongType found expected =>
    "invalid type: " ++ found.phrase ++ ", expected " ++ expected.phrase
  | wrongValue found expected =>
    "invalid value: " ++ found.phrase ++ ", expected " ++ expected.phrase

/-- Why nothing was decoded: the text could not be read, or holds something else. -/
inductive DecodeError where
  | read (cause : ReadError)
  | data (cause : DataError)

/-- The value that an identifier is written as. -/
def ofIdent (id : Ident) : Json := string id.text

/-- The identifier that a string holds. -/
def identOfString (s : String) : Except DataError Ident :=
  (Ident.ofText s).mapError .ident

/-- The identifier that bytes hold as the text of a string. -/
def identOfBytes (bytes : List UInt8) : Except DataError Ident :=
  match Utf8.decode? bytes with
  | some s => identOfString s
  | none => .error (.wrongValue .bytes .string)

/-- The identifier that a value holds. -/
def identOfValue : Json → Except DataError Ident
  | string s => identOfString s
  | v => .error (.wrongType v.found .string)

/-- Refuses anything but blanks. -/
def expectEnd (cs : List Char) : Except DecodeError Unit :=
  if (skipBlanks cs).isEmpty then .ok () else .error (.read .malformed)

/-- The identifier that a document holds. A string that is no identifier is found out before the
text after it is looked at. -/
def identOfText (text : String) : Except DecodeError Ident :=
  match readToken (skipBlanks text.toList) with
  | .error e => .error (.read e)
  | .ok (.string s, rest) =>
    match identOfString s with
    | .error e => .error (.data e)
    | .ok id => (expectEnd rest).map fun _ => id
  | .ok (token, _) => .error (.data (.wrongType token.found .string))

end ProtocolIdent.Json
