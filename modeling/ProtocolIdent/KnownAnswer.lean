import ProtocolIdent.Header
import ProtocolIdent.Json.Ident

/-!
# Known answers

A known answer is a version string with the identifier and the four header bytes that it should
have. Checking it compares them in every way that the library offers: as text, as identifiers, by
reading the bytes, by writing them, and at the packet gate.
-/
namespace ProtocolIdent

/-- A known answer as it is recorded in a document, the identifier not yet read. -/
structure Record where
  version : String
  ident : Json
  wire : List UInt8

/-- A known answer. -/
structure KnownAnswer where
  version : String
  ident : Ident
  wire : List UInt8
  deriving DecidableEq, Repr

structure Verdict where
  text : String
  textMatches : Bool
  identMatches : Bool
  read : Except IdentError Ident
  written : Except IdentError Header.Written
  writtenMatches : Bool
  accepted : Bool

namespace KnownAnswer

def ofRecord (r : Record) : Except Json.DataError KnownAnswer :=
  (Json.identOfValue r.ident).map fun ident =>
    { version := r.version, ident, wire := r.wire }

/-- Reads records in order, up to the first whose identifier cannot be read. -/
def load (records : List Record) : Except Json.DataError (List KnownAnswer) :=
  records.mapM ofRecord

/-- A buffer of the size of the header field. -/
def blankField : List UInt8 := List.replicate Ident.fieldSize 0

/-- Makes every check; the version string is hashed anew for each of the first three. -/
def check (k : KnownAnswer) : Logged Verdict := do
  let shown ← Ident.textOf k.version
  let compared ← Ident.textOf k.version
  let typed ← Ident.derive k.version
  let read := Header.read k.wire
  let written := Header.write blankField k.ident
  let accepted ← Header.check k.wire k.ident
  return {
    text := shown
    textMatches := compared = k.ident.text
    identMatches := typed = k.ident
    read
    written
    writtenMatches := match written with
      | .ok w => w.buffer = k.wire
      | .error _ => false
    accepted }

end KnownAnswer

end ProtocolIdent
