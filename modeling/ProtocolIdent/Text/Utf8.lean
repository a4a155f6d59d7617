/-!
# UTF-8, well-formed and not

A byte sequence is read by a machine that holds the character under way. Every byte either goes
on with that character, or ends it early and is read afresh. What is read is a sequence of
pieces: characters, and ill-formed parts, each of them as long as the bytes could still have
become a character and at least one byte.

`decode?` accepts the sequences without an ill-formed part, and `lossy` writes U+FFFD for each.
-/
namespace ProtocolIdent.Utf8

def encode (text : String) : List UInt8 :=
  text.toList.flatMap String.utf8EncodeChar

/-- What a byte sequence consists of. -/
inductive Piece where
  | char (c : Char)
  | illFormed (bytes : List UInt8)
  deriving DecidableEq, Repr

/-- A character under way: the bytes seen, the bits they carry, the range of the next byte, and
how many bytes follow that one. -/
structure Unfinished where
  seen : List UInt8
  bits : Nat
  low : UInt8 := 0x80
  high : UInt8 := 0xBF
  more : Nat
  deriving DecidableEq, Repr

/-- The character that a leading byte begins. The second byte is narrowed where a shorter form
(E0, F0), a surrogate (ED) or a number above U+10FFFF (F4) would begin. -/
def Unfinished.ofLead? (b : UInt8) : Option Unfinished :=
  if b < 0xC2 then none
  else if b ≤ 0xDF then some { seen := [b], bits := b.toNat - 0xC0, more := 0 }
  else if b = 0xE0 then some { seen := [b], bits := 0, low := 0xA0, more := 1 }
  else if b = 0xED then some { seen := [b], bits := 0xD, high := 0x9F, more := 1 }
  else if b ≤ 0xEF then some { seen := [b], bits := b.toNat - 0xE0, more := 1 }
  else if b = 0xF0 then some { seen := [b], bits := 0, low := 0x90, more := 2 }
  else if b ≤ 0xF3 then some { seen := [b], bits := b.toNat - 0xF0, more := 2 }
  else if b = 0xF4 then some { seen := [b], bits := 4, high := 0x8F, more := 2 }
  else none

/-- A reading position: the pieces read, latest first, and the character under way. -/
structure Scan where
  pieces : List Piece := []
  pending : Option Unfinished := none
  deriving DecidableEq, Repr

namespace Scan

/-- Reads a byte at the start of a character. -/
def start (pieces : List Piece) (b : UInt8) : Scan :=
  if b < 0x80 then { pieces := .char (Char.ofNat b.toNat) :: pieces }
  else match Unfinished.ofLead? b with
    | some u => { pieces, pending := some u }
    | none => { pieces := .illFormed [b] :: pieces }

/-- Reads a byte that goes on with a character. -/
def extend (pieces : List Piece) (u : Unfinished) (b : UInt8) : Scan :=
  let bits := u.bits * 64 + (b.toNat - 0x80)
  match u.more with
  | 0 => { pieces := .char (Char.ofNat bits) :: pieces }
  | n + 1 => { pieces, pending := some { seen := u.seen ++ [b], bits, more := n } }

def step (s : Scan) (b : UInt8) : Scan :=
  match s.pending with
  | none => start s.pieces b
  | some u =>
    if u.low ≤ b ∧ b ≤ u.high then extend s.pieces u b
    else start (.illFormed u.seen :: s.pieces) b

/-- The pieces in order; a character still under way is ill-formed. -/
def finish (s : Scan) : List Piece :=
  match s.pending with
  | none => s.pieces.reverse
  | some u => (.illFormed u.seen :: s.pieces).reverse

end Scan

/-- Splits a byte sequence into characters and ill-formed parts. -/
def split (bytes : List UInt8) : List Piece :=
  (bytes.foldl Scan.step {}).finish

namespace Piece

def char? : Piece → Option Char
  | .char c => some c
  | .illFormed _ => none

/-- The character, or U+FFFD for an ill-formed part. -/
def shown : Piece → Char
  | .char c => c
  | .illFormed _ => '\uFFFD'

/-- The bytes that the piece was read from. -/
def bytes : Piece → List UInt8
  | .char c => String.utf8EncodeChar c
  | .illFormed bs => bs

end Piece

/-- The text whose bytes these are. -/
def decode? (bytes : List UInt8) : Option String :=
  ((split bytes).mapM Piece.char?).map String.ofList

/-- The text of a byte sequence, each ill-formed part shown as U+FFFD. -/
def lossy (bytes : List UInt8) : String :=
  String.ofList ((split bytes).map Piece.shown)

end ProtocolIdent.Utf8
