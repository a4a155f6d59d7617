import Std.Data.TreeMap
import ProtocolIdent.Ident.Order
import ProtocolIdent.Json.Ident

/-!
# Identifiers as keys

A map from identifiers to numbers of 32 bits is an object whose keys are identifier texts. Keys
that are read as one identifier are one key, and the last of them counts. The map is kept and
written in ascending order.
-/
namespace ProtocolIdent

/-- A map from identifiers to numbers, in ascending order. -/
abbrev IdentMap := Std.TreeMap Ident Nat

namespace IdentMap

/-- The map of the last place at which each identifier occurs in a list. -/
def lastIndices (ids : List Ident) : IdentMap :=
  ids.zipIdx.foldl (fun m (id, i) => m.insert id i) ∅

/-- The object that a map is written as. -/
def toJson (m : IdentMap) : Json :=
  .object (m.toList.map fun (id, n) => (id.text, Json.ofNat n))

end IdentMap

namespace Json

/-- The number of 32 bits that a token holds. -/
def word32OfToken : Token → Except DataError Nat
  | .number (.whole n) =>
    if 0 ≤ n ∧ n < 0x100000000 then .ok n.toNat
    else .error (.wrongValue (.number (.whole n)) .word32)
  | token => .error (.wrongType token.found .word32)

/-- Reads the colon and the number of a member. -/
def readCount (cs : List Char) : Except DecodeError (Nat × List Char) :=
  match skipBlanks cs with
  | ':' :: rest =>
    match readToken (skipBlanks rest) with
    | .ok (token, rest) =>
      match word32OfToken token with
      | .ok n => .ok (n, rest)
      | .error e => .error (.data e)
    | .error e => .error (.read e)
  | [] => .error (.read .truncated)
  | _ => .error (.read .malformed)

/-- Reads a member: its key is decoded before anything after it is looked at. -/
def readMember (cs : List Char) : Except DecodeError ((Ident × Nat) × List Char) :=
  match cs with
  | '"' :: rest =>
    match readString [] rest with
    | .ok (key, rest) =>
      match identOfString key with
      | .ok id =>
        match readCount rest with
        | .ok (n, rest) => .ok ((id, n), rest)
        | .error e => .error e
      | .error e => .error (.data e)
    | .error e => .error (.read e)
  | [] => .error (.read .truncated)
  | _ => .error (.read .malformed)

/-- Reads what follows a member up to the end of the object. Each round takes a comma off the
text, so its length bounds the rounds. -/
def readMoreEntries : Nat → IdentMap → List Char → Except DecodeError (IdentMap × List Char)
  | 0, _, _ => .error (.read .truncated)
  | n + 1, m, cs =>
    match skipBlanks cs with
    | '\x7d' :: rest => .ok (m, rest)
    | ',' :: rest =>
      match readMember (skipBlanks rest) with
      | .ok ((id, count), rest) => readMoreEntries n (m.insert id count) rest
      | .error e => .error e
    | [] => .error (.read .truncated)
    | _ => .error (.read .malformed)

/-- Reads the entries of an object after its opening brace. -/
def readEntries (cs : List Char) : Except DecodeError (IdentMap × List Char) :=
  match skipBlanks cs with
  | '\x7d' :: rest => .ok (∅, rest)
  | cs =>
    match readMember cs with
    | .ok ((id, count), rest) =>
      readMoreEntries (rest.length + 1) ((∅ : IdentMap).insert id count) rest
    | .error e => .error e

/-- The map that a document holds. -/
def identMapOfText (text : String) : Except DecodeError IdentMap :=
  match readToken (skipBlanks text.toList) with
  | .error e => .error (.read e)
  | .ok (.openObject, rest) =>
    match readEntries rest with
    | .ok (m, rest) => (expectEnd rest).map fun _ => m
    | .error e => .error e
  | .ok (token, _) => .error (.data (.wrongType token.found .map))

end Json

end ProtocolIdent
