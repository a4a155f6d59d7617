import ProtocolIdent.Json.Basic
import ProtocolIdent.Json.Token

/-!
# JSON documents

A document is one value between blanks. Every step of a read takes a token off the text, so twice
the length of the text bounds the depth of the read.
-/
namespace ProtocolIdent.Json

mutual

/-- Reads a value after blanks. -/
def readValue : Nat → List Char → Except ReadError (Json × List Char)
  | 0, _ => .error .truncated
  | n + 1, cs => do
    match ← readToken (skipBlanks cs) with
    | (.null, rest) => return (null, rest)
    | (.bool b, rest) => return (bool b, rest)
    | (.number x, rest) => return (number x, rest)
    | (.string s, rest) => return (string s, rest)
    | (.openArray, rest) =>
      match skipBlanks rest with
      | ']' :: rest => return (array [], rest)
      | rest => readElements n [] rest
    | (.openObject, rest) =>
      match skipBlanks rest with
      | '\x7d' :: rest => return (object [], rest)
      | rest => readMembers n [] rest

/-- Reads the elements of an array; those read are held latest first. -/
def readElements : Nat → List Json → List Char → Except ReadError (Json × List Char)
  | 0, _, _ => .error .truncated
  | n + 1, done, cs => do
    let (v, rest) ← readValue n cs
    match skipBlanks rest with
    | ',' :: rest => readElements n (v :: done) rest
    | ']' :: rest => return (array (v :: done).reverse, rest)
    | [] => throw .truncated
    | _ => throw .malformed

/-- Reads the members of an object; those read are held latest first. -/
def readMembers : Nat → List (String × Json) → List Char → Except ReadError (Json × List Char)
  | 0, _, _ => .error .truncated
  | n + 1, done, cs => do
    match skipBlanks cs with
    | '"' :: rest =>
      let (key, rest) ← readString [] rest
      match skipBlanks rest with
      | ':' :: rest =>
        let (v, rest) ← readValue n rest
        match skipBlanks rest with
        | ',' :: rest => readMembers n ((key, v) :: done) rest
        | '\x7d' :: rest => return (object ((key, v) :: done).reverse, rest)
        | [] => throw .truncated
        | _ => throw .malformed
      | [] => throw .truncated
      | _ => throw .malformed
    | [] => throw .truncated
    | _ => throw .malformed

end

/-- Reads a document. -/
def ofText (text : String) : Except ReadError Json := do
  let cs := text.toList
  let (v, rest) ← readValue (2 * cs.length + 2) cs
  if (skipBlanks rest).isEmpty then return v else throw .malformed

end ProtocolIdent.Json
