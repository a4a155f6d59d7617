import Mathlib.Data.Nat.Find
import Mathlib.Data.Nat.Prime.Basic
import ProtocolIdent.Digits

/-!
# SHA-512 by the words of its standard

The hash function on bit strings, with every word found by its index: the message is padded to
blocks of 1024 bits, block `i` contributes the words `w` by a recurrence on the number of the
round, and eight registers go through eighty rounds for each block. The constants are not listed
but given by what they are, bits of roots of primes. A bit string is a list of binary digits,
most significant first.
-/
namespace ProtocolIdent.Sha512.Standard

abbrev Word := BitVec 64

/-! ## Functions and constants -/

def ch (x y z : Word) : Word := (x &&& y) ^^^ (~~~x &&& z)

def maj (x y z : Word) : Word := (x &&& y) ^^^ (x &&& z) ^^^ (y &&& z)

def bigSigma0 (x : Word) : Word := x.rotateRight 28 ^^^ x.rotateRight 34 ^^^ x.rotateRight 39

def bigSigma1 (x : Word) : Word := x.rotateRight 14 ^^^ x.rotateRight 18 ^^^ x.rotateRight 41

def smallSigma0 (x : Word) : Word := x.rotateRight 1 ^^^ x.rotateRight 8 ^^^ x >>> 7

def smallSigma1 (x : Word) : Word := x.rotateRight 19 ^^^ x.rotateRight 61 ^^^ x >>> 6

/-- The first eighty primes. -/
def primes : List Nat :=
  (List.range 410).filter fun n => n.Prime

/-- The first 64 bits behind the point of the `r`-th root of `n`. The root of `n * 2 ^ (64 * r)`
is that of `n` moved by 64 places; `BitVec.ofNat` drops what stands before the point. -/
def rootFraction (r n : Nat) : Word :=
  let moved := n * 2 ^ (64 * r)
  BitVec.ofNat 64 (Nat.findGreatest (fun x => x ^ r ≤ moved) moved)

/-- The constant of round `t`. -/
def constant (t : Nat) : Word :=
  rootFraction 3 (primes.getD t 0)

/-- The eight working registers. -/
structure Registers where
  a : Word
  b : Word
  c : Word
  d : Word
  e : Word
  f : Word
  g : Word
  h : Word

def initial : Registers where
  a := rootFraction 2 2
  b := rootFraction 2 3
  c := rootFraction 2 5
  d := rootFraction 2 7
  e := rootFraction 2 11
  f := rootFraction 2 13
  g := rootFraction 2 17
  h := rootFraction 2 19

/-! ## The padded message -/

def bits (bytes : List UInt8) : List Nat :=
  bytes.flatMap fun b => Digits.fixed 2 8 b.toNat

theorem exists_fill (length : Nat) : ∃ k, (length + 1 + k) % 1024 = 896 :=
  ⟨(1919 - length % 1024) % 1024, by omega⟩

/-- The least number of zeros that leaves room for a length of 128 bits in the last block. -/
def fill (length : Nat) : Nat :=
  Nat.find (exists_fill length)

/-- The message, a one, zeros, and the length of the message as 128 bits. -/
def pad (message : List Nat) : List Nat :=
  message ++ 1 :: List.replicate (fill message.length) 0 ++ Digits.fixed 2 128 message.length

/-- Word `j` of a bit string. -/
def word (string : List Nat) (j : Nat) : Word :=
  BitVec.ofNat 64 (Digits.value 2 ((string.drop (64 * j)).take 64))

/-! ## Rounds -/

/-- The word of round `t`, from the sixteen words of a block. -/
def w (block : Nat → Word) (t : Nat) : Word :=
  if t < 16 then block t
  else smallSigma1 (w block (t - 2)) + w block (t - 7) + smallSigma0 (w block (t - 15)) +
    w block (t - 16)

/-- The registers after a round with its constant and its word. -/
def round (r : Registers) (k x : Word) : Registers :=
  let t₁ := r.h + bigSigma1 r.e + ch r.e r.f r.g + k + x
  let t₂ := bigSigma0 r.a + maj r.a r.b r.c
  { a := t₁ + t₂, b := r.a, c := r.b, d := r.c, e := r.d + t₁, f := r.e, g := r.f, h := r.g }

/-- The registers after the first `t` rounds. -/
def rounds (block : Nat → Word) (r : Registers) : Nat → Registers
  | 0 => r
  | t + 1 => round (rounds block r t) (constant t) (w block t)

/-- The registers after a block. -/
def compress (block : Nat → Word) (r : Registers) : Registers :=
  let s := rounds block r 80
  { a := r.a + s.a, b := r.b + s.b, c := r.c + s.c, d := r.d + s.d,
    e := r.e + s.e, f := r.f + s.f, g := r.g + s.g, h := r.h + s.h }

/-- The registers after the first `i` blocks of a padded message. -/
def hash (padded : List Nat) : Nat → Registers
  | 0 => initial
  | i + 1 => compress (fun t => word padded (16 * i + t)) (hash padded i)

/-- The 512 bits of the digest of a bit string. -/
def digest (message : List Nat) : List Nat :=
  let padded := pad message
  let r := hash padded (padded.length / 1024)
  [r.a, r.b, r.c, r.d, r.e, r.f, r.g, r.h].flatMap fun x => Digits.fixed 2 64 x.toNat

end ProtocolIdent.Sha512.Standard
