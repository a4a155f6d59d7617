/-!
# SHA-512

The digest of a byte sequence: the message is padded to whole blocks of 128 bytes, the blocks are
absorbed from left to right into eight 64-bit words, and the words are written big-endian.
-/
namespace ProtocolIdent.Sha512

/-- The eight working words. -/
structure State where
  a : UInt64
  b : UInt64
  c : UInt64
  d : UInt64
  e : UInt64
  f : UInt64
  g : UInt64
  h : UInt64
  deriving DecidableEq, Repr

/-- The first 64 bits after the point of the square roots of the first eight primes. -/
def initial : State where
  a := 0x6a09e667f3bcc908
  b := 0xbb67ae8584caa73b
  c := 0x3c6ef372fe94f82b
  d := 0xa54ff53a5f1d36f1
  e := 0x510e527fade682d1
  f := 0x9b05688c2b3e6c1f
  g := 0x1f83d9abfb41bd6b
  h := 0x5be0cd19137e2179

/-- The first 64 bits after the point of the cube roots of the first eighty primes. -/
def roundConstants : List UInt64 :=
  [0x428a2f98d728ae22, 0x7137449123ef65cd, 0xb5c0fbcfec4d3b2f, 0xe9b5dba58189dbbc,
   0x3956c25bf348b538, 0x59f111f1b605d019, 0x923f82a4af194f9b, 0xab1c5ed5da6d8118,
   0xd807aa98a3030242, 0x12835b0145706fbe, 0x243185be4ee4b28c, 0x550c7dc3d5ffb4e2,
   0x72be5d74f27b896f, 0x80deb1fe3b1696b1, 0x9bdc06a725c71235, 0xc19bf174cf692694,
   0xe49b69c19ef14ad2, 0xefbe4786384f25e3, 0x0fc19dc68b8cd5b5, 0x240ca1cc77ac9c65,
   0x2de92c6f592b0275, 0x4a7484aa6ea6e483, 0x5cb0a9dcbd41fbd4, 0x76f988da831153b5,
   0x983e5152ee66dfab, 0xa831c66d2db43210, 0xb00327c898fb213f, 0xbf597fc7beef0ee4,
   0xc6e00bf33da88fc2, 0xd5a79147930aa725, 0x06ca6351e003826f, 0x142929670a0e6e70,
   0x27b70a8546d22ffc, 0x2e1b21385c26c926, 0x4d2c6dfc5ac42aed, 0x53380d139d95b3df,
   0x650a73548baf63de, 0x766a0abb3c77b2a8, 0x81c2c92e47edaee6, 0x92722c851482353b,
   0xa2bfe8a14cf10364, 0xa81a664bbc423001, 0xc24b8b70d0f89791, 0xc76c51a30654be30,
   0xd192e819d6ef5218, 0xd69906245565a910, 0xf40e35855771202a, 0x106aa07032bbd1b8,
   0x19a4c116b8d2d0c8, 0x1e376c085141ab53, 0x2748774cdf8eeb99, 0x34b0bcb5e19b48a8,
   0x391c0cb3c5c95a63, 0x4ed8aa4ae3418acb, 0x5b9cca4f7763e373, 0x682e6ff3d6b2b8a3,
   0x748f82ee5defb2fc, 0x78a5636f43172f60, 0x84c87814a1f0ab72, 0x8cc702081a6439ec,
   0x90befffa23631e28, 0xa4506cebde82bde9, 0xbef9a3f7b2c67915, 0xc67178f2e372532b,
   0xca273eceea26619c, 0xd186b8c721c0c207, 0xeada7dd6cde0eb1e, 0xf57d4f7fee6ed178,
   0x06f067aa72176fba, 0x0a637dc5a2c898a6, 0x113f9804bef90dae, 0x1b710b35131c471b,
   0x28db77f523047d84, 0x32caab7b40c72493, 0x3c9ebe0a15c9bebc, 0x431d67c49c100d4c,
   0x4cc5d4becb3e42b6, 0x597f299cfc657e2a, 0x5fcb6fab3ad6faec, 0x6c44198c4a475817]

def rotateRight (x : UInt64) (n : UInt64) : UInt64 :=
  (x >>> n) ||| (x <<< (64 - n))

def choose (x y z : UInt64) : UInt64 := (x &&& y) ^^^ (~~~x &&& z)

def majority (x y z : UInt64) : UInt64 := (x &&& y) ^^^ (x &&& z) ^^^ (y &&& z)

def bigSigma0 (x : UInt64) : UInt64 := rotateRight x 28 ^^^ rotateRight x 34 ^^^ rotateRight x 39

def bigSigma1 (x : UInt64) : UInt64 := rotateRight x 14 ^^^ rotateRight x 18 ^^^ rotateRight x 41

def smallSigma0 (x : UInt64) : UInt64 := rotateRight x 1 ^^^ rotateRight x 8 ^^^ (x >>> 7)

def smallSigma1 (x : UInt64) : UInt64 := rotateRight x 19 ^^^ rotateRight x 61 ^^^ (x >>> 6)

/-- The word that bytes denote, most significant first. -/
def wordOfBytes (bytes : List UInt8) : UInt64 :=
  bytes.foldl (fun w b => w <<< 8 ||| b.toUInt64) 0

/-- The eight bytes of a word, most significant first. -/
def bytesOfWord (w : UInt64) : List UInt8 :=
  [w >>> 56, w >>> 48, w >>> 40, w >>> 32, w >>> 24, w >>> 16, w >>> 8, w].map UInt64.toUInt8

/-- The first `n` words of a byte sequence. -/
def words : Nat → List UInt8 → List UInt64
  | 0, _ => []
  | n + 1, bytes => wordOfBytes (bytes.take 8) :: words n (bytes.drop 8)

/-- The next word of a schedule that is held latest first. -/
def nextWord (ws : List UInt64) : UInt64 :=
  smallSigma1 (ws.getD 1 0) + ws.getD 6 0 + smallSigma0 (ws.getD 14 0) + ws.getD 15 0

/-- Prepends `n` words to a schedule that is held latest first. -/
def extendSchedule : Nat → List UInt64 → List UInt64
  | 0, ws => ws
  | n + 1, ws => extendSchedule n (nextWord ws :: ws)

/-- The eighty words that a block contributes, one a round. -/
def schedule (block : List UInt8) : List UInt64 :=
  (extendSchedule 64 (words 16 block).reverse).reverse

/-- One round, with its constant and its word of the schedule. -/
def round (s : State) (k w : UInt64) : State :=
  let t₁ := s.h + bigSigma1 s.e + choose s.e s.f s.g + k + w
  let t₂ := bigSigma0 s.a + majority s.a s.b s.c
  { a := t₁ + t₂, b := s.a, c := s.b, d := s.c, e := s.d + t₁, f := s.e, g := s.f, h := s.g }

/-- Absorbs one block. -/
def absorb (s : State) (block : List UInt8) : State :=
  let r := (roundConstants.zip (schedule block)).foldl (fun r kw => round r kw.1 kw.2) s
  { a := s.a + r.a, b := s.b + r.b, c := s.c + r.c, d := s.d + r.d,
    e := s.e + r.e, f := s.f + r.f, g := s.g + r.g, h := s.h + r.h }

/-- Absorbs the first `n` blocks of a padded message. -/
def absorbBlocks : Nat → State → List UInt8 → State
  | 0, s, _ => s
  | n + 1, s, bytes => absorbBlocks n (absorb s (bytes.take 128)) (bytes.drop 128)

/-- The zero bytes between the end mark and the length, which fill up the last block. -/
def zeroCount (length : Nat) : Nat :=
  (239 - length % 128) % 128

/-- The message, an end mark, zeros, and the length in bits as sixteen bytes. -/
def pad (bytes : List UInt8) : List UInt8 :=
  let bits := 8 * bytes.length
  let length := bytesOfWord (UInt64.ofNat (bits >>> 64)) ++ bytesOfWord (UInt64.ofNat bits)
  bytes ++ 0x80 :: List.replicate (zeroCount bytes.length) 0 ++ length

/-- The words of a state in order. -/
def State.words (s : State) : List UInt64 :=
  [s.a, s.b, s.c, s.d, s.e, s.f, s.g, s.h]

/-- The 64 bytes of the digest. -/
def digest (bytes : List UInt8) : List UInt8 :=
  let padded := pad bytes
  (absorbBlocks (padded.length / 128) initial padded).words.flatMap bytesOfWord

@[simp] theorem length_digest (bytes : List UInt8) : (digest bytes).length = 64 := rfl

end ProtocolIdent.Sha512
