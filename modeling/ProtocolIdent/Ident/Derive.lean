import ProtocolIdent.Log
import ProtocolIdent.Sha512
import ProtocolIdent.Text.Utf8

/-!
# Identifiers of version strings

The identifier of a version string is the leading field of the SHA-512 digest of its UTF-8 bytes.
Version strings that come as bytes from outside are taken only if they are UTF-8: shown loosely
they would be hashed as other bytes.
-/
namespace ProtocolIdent

def defaultVersion : String := "Testing v0.1"

/-- The identifier of `defaultVersion`. -/
def defaultIdent : Ident := ⟨0x0c229d94⟩

/-- The text of bytes from outside. -/
def versionText (bytes : List UInt8) : Except IdentError String :=
  match Utf8.decode? bytes with
  | some text => .ok text
  | none => .error (.notText (Utf8.lossy bytes))

namespace Ident

/-- The identifier that a digest begins with. -/
def ofDigest (digest : List UInt8) : Ident :=
  ofField (digest.take fieldSize)

def ofBytes (bytes : List UInt8) : Ident :=
  ofDigest (Sha512.digest bytes)

def ofVersion (version : String) : Ident :=
  ofBytes (Utf8.encode version)

/-- The one place where bytes are hashed and the hash is told of. -/
def deriveBytes (bytes : List UInt8) : Logged Ident := do
  let id := ofBytes bytes
  Logged.tell (.hashed bytes.length id)
  return id

def derive (version : String) : Logged Ident :=
  deriveBytes (Utf8.encode version)

/-- The text of the identifier of a version string. -/
def textOf (version : String) : Logged String :=
  return (← derive version).text

/-- Bytes that are no text are not hashed. -/
def deriveText (bytes : List UInt8) : Logged (Except IdentError Ident) :=
  match versionText bytes with
  | .ok version => return .ok (← derive version)
  | .error e => return .error e

end Ident

end ProtocolIdent
