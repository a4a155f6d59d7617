import ProtocolIdent.Text.Quoted

/-!
# What can be wrong with an identifier

Three causes: bytes that were to be a version string are no text, a text is no identifier, and a
buffer ends before the identifier does. Each keeps what its message is about.
-/
namespace ProtocolIdent

inductive IdentError where
  | notText (lossy : String)
  | malformed (input : String)
  | shortBuffer (needed actual : Nat)
  deriving DecidableEq, Repr

namespace IdentError

def message : IdentError → String
  | notText lossy => "version string is not valid UTF-8: " ++ Text.quote lossy
  | malformed input => "invalid protocol identifier: " ++ Text.quote input
  | shortBuffer needed actual =>
    "buffer too short for protocol identifier: need " ++ toString needed ++ " bytes, got "
      ++ toString actual

/-- The cause and its fields, as they are written while debugging. -/
def debugText : IdentError → String
  | notText lossy => "Encoding \x7b lossy: " ++ Text.quote lossy ++ " \x7d"
  | malformed input => "InvalidFormat(" ++ Text.quote input ++ ")"
  | shortBuffer needed actual =>
    "BufferTooShort \x7b needed: " ++ toString needed ++ ", actual: " ++ toString actual
      ++ " \x7d"

end IdentError

end ProtocolIdent
