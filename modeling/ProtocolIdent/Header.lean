import ProtocolIdent.Ident.Error
import ProtocolIdent.Log

/-!
# The leading field of a packet

Every packet begins with the four bytes of an identifier. They are read and written in place, and
a packet of another identifier, or one that is too short to hold any, is turned away.
-/
namespace ProtocolIdent.Header

def tooShort (buffer : List UInt8) : IdentError :=
  .shortBuffer Ident.fieldSize buffer.length

/-- The identifier at the front of a buffer. -/
def read (buffer : List UInt8) : Except IdentError Ident :=
  if buffer.length < Ident.fieldSize then .error (tooShort buffer)
  else .ok (Ident.ofField (buffer.take Ident.fieldSize))

/-- How many bytes were written, and the buffer afterwards. -/
structure Written where
  count : Nat
  buffer : List UInt8
  deriving DecidableEq, Repr

/-- Bytes behind the field stay as they are. -/
def write (buffer : List UInt8) (id : Ident) : Except IdentError Written :=
  if buffer.length < Ident.fieldSize then .error (tooShort buffer)
  else .ok { count := Ident.fieldSize, buffer := id.field ++ buffer.drop Ident.fieldSize }

def accepts (buffer : List UInt8) (expected : Ident) : Bool :=
  match read buffer with
  | .ok id => id = expected
  | .error _ => false

/-- Checks the front of a buffer and tells why it is turned away. -/
def check (buffer : List UInt8) (expected : Ident) : Logged Bool :=
  match read buffer with
  | .ok id =>
    if id = expected then return true
    else do
      Logged.tell (.mismatch id expected)
      return false
  | .error e => do
    Logged.tell (.noIdent e)
    return false

/-- What is told does not change the answer. -/
@[simp] theorem value_check (buffer : List UInt8) (expected : Ident) :
    (check buffer expected).value = accepts buffer expected := by
  rw [check, accepts]
  cases read buffer with
  | error e => rfl
  | ok id => by_cases h : id = expected <;> simp [h]

end ProtocolIdent.Header
