import ProtocolIdent.Hex
import ProtocolIdent.Json.Number

/-!
# Tokens of JSON documents

A document is read from the left, one token at a time. A read fails because the text is not of
the grammar, or because it ends where the grammar goes on.
-/
namespace ProtocolIdent.Json

/-- Why a text could not be read. -/
inductive ReadError where
  | malformed
  | truncated
  deriving DecidableEq, Repr

/-- The outcome of a read: what was read and the characters left. -/
abbrev Reading (α : Type) := Except ReadError (α × List Char)

/-- Blanks between tokens: space, line feed, tab, carriage return. -/
def isBlank (c : Char) : Bool :=
  c == ' ' || c == '\n' || c == '\t' || c == '\r'

/-- The characters after leading blanks. -/
def skipBlanks (cs : List Char) : List Char :=
  cs.dropWhile isBlank

/-- Reads the rest of a word. -/
def readWord : List Char → List Char → Except ReadError (List Char)
  | [], cs => .ok cs
  | _ :: _, [] => .error .truncated
  | w :: ws, c :: cs => if c = w then readWord ws cs else .error .malformed

/-! ## Strings -/

/-- The character that a letter after a backslash stands for. -/
def unescape? : Char → Option Char
  | '"' => some '"'
  | '\\' => some '\\'
  | '/' => some '/'
  | 'b' => some '\x08'
  | 'f' => some '\x0c'
  | 'n' => some '\n'
  | 'r' => some '\r'
  | 't' => some '\t'
  | _ => none

/-- Reads a unit of four hexadecimal digits. Fewer than four bytes are too few, whatever they
are. -/
def readUnit (cs : List Char) : Reading Nat :=
  if (String.ofList (cs.take 4)).utf8ByteSize < 4 then .error .truncated
  else match cs with
    | a :: b :: c :: d :: rest =>
      match [a, b, c, d].mapM Hex.value? with
      | some ds => .ok (Digits.value 16 ds, rest)
      | none => .error .malformed
    | _ => .error .malformed

/-- Reads what must follow the first unit of a pair: an escape with a unit of the second kind. -/
def readSecondUnit (first : Nat) : List Char → Reading Char
  | [] => .error .truncated
  | ['\\'] => .error .truncated
  | '\\' :: 'u' :: rest =>
    match readUnit rest with
    | .ok (unit, rest) =>
      if 0xDC00 ≤ unit ∧ unit ≤ 0xDFFF then
        .ok (Char.ofNat (0x10000 + (first - 0xD800) * 0x400 + (unit - 0xDC00)), rest)
      else .error .malformed
    | .error e => .error e
  | _ => .error .malformed

/-- Reads what follows a backslash. A character beyond the basic plane is spelled by two units. -/
def readEscape : List Char → Reading Char
  | [] => .error .truncated
  | 'u' :: rest =>
    match readUnit rest with
    | .ok (unit, rest) =>
      if 0xDC00 ≤ unit ∧ unit ≤ 0xDFFF then .error .malformed
      else if 0xD800 ≤ unit ∧ unit ≤ 0xDBFF then readSecondUnit unit rest
      else .ok (Char.ofNat unit, rest)
    | .error e => .error e
  | c :: rest =>
    match unescape? c with
    | some d => .ok (d, rest)
    | none => .error .malformed

theorem length_readUnit {cs rest : List Char} {n : Nat} (h : readUnit cs = .ok (n, rest)) :
    rest.length < cs.length := by
  simp only [readUnit] at h
  split at h
  · contradiction
  · split at h
    · split at h
      · obtain ⟨-, rfl⟩ := Prod.mk.inj (Except.ok.inj h)
        simp only [List.length_cons]
        omega
      · contradiction
    · contradiction

theorem length_readSecondUnit {first : Nat} {cs rest : List Char} {c : Char}
    (h : readSecondUnit first cs = .ok (c, rest)) : rest.length < cs.length := by
  simp only [readSecondUnit] at h
  split at h
  · contradiction
  · contradiction
  · split at h
    next hunit =>
      have shorter := length_readUnit hunit
      split at h
      · obtain ⟨-, rfl⟩ := Prod.mk.inj (Except.ok.inj h)
        simp only [List.length_cons]
        omega
      · contradiction
    next => contradiction
  · contradiction

theorem length_readEscape {cs rest : List Char} {c : Char} (h : readEscape cs = .ok (c, rest)) :
    rest.length < cs.length := by
  simp only [readEscape] at h
  split at h
  · contradiction
  · split at h
    next hunit =>
      have shorter := length_readUnit hunit
      split at h
      · contradiction
      · split at h
        · have shortest := length_readSecondUnit h
          simp only [List.length_cons]
          omega
        · obtain ⟨-, rfl⟩ := Prod.mk.inj (Except.ok.inj h)
          simp only [List.length_cons]
          omega
    next => contradiction
  · split at h
    · obtain ⟨-, rfl⟩ := Prod.mk.inj (Except.ok.inj h)
      simp
    · contradiction

/-- Reads a string after its opening quote; `done` holds its characters so far, latest first. -/
def readString (done : List Char) (cs : List Char) : Reading String :=
  match cs with
  | [] => .error .truncated
  | '"' :: rest => .ok (String.ofList done.reverse, rest)
  | '\\' :: rest =>
    match _read : readEscape rest with
    | .ok (c, after) => readString (c :: done) after
    | .error e => .error e
  | c :: rest =>
    if c.toNat < 0x20 then .error .malformed else readString (c :: done) rest
termination_by cs.length
decreasing_by
  · have shorter := length_readEscape _read
    simp; omega
  · simp

/-! ## Numbers -/

/-- The value of a decimal digit. -/
def digitValue (c : Char) : Nat := c.toNat - 48

/-- Reads a run of digits that must not be empty. -/
def readDigits (cs : List Char) : Reading (List Nat) :=
  match cs with
  | [] => .error .truncated
  | c :: _ =>
    if c.isDigit then
      .ok ((cs.takeWhile Char.isDigit).map digitValue, cs.dropWhile Char.isDigit)
    else .error .malformed

/-- Reads the digits before the point: no zero stands before another digit. -/
def readWhole (cs : List Char) : Reading (List Nat) :=
  match readDigits cs with
  | .ok (0 :: _ :: _, _) => .error .malformed
  | r => r

/-- Reads the point and the digits after it, if there is one. -/
def readFraction : List Char → Reading (Option (List Nat))
  | '.' :: rest => (readDigits rest).map fun (ds, rest) => (some ds, rest)
  | cs => .ok (none, cs)

/-- Reads the exponent, if there is one. -/
def readExponent : List Char → Reading (Option Int)
  | 'e' :: rest => (readPower rest).map fun (n, rest) => (some n, rest)
  | 'E' :: rest => (readPower rest).map fun (n, rest) => (some n, rest)
  | cs => .ok (none, cs)
where
  /-- Reads a power of ten with its sign. -/
  readPower : List Char → Reading Int
    | '+' :: rest => (readDigits rest).map fun (ds, rest) => ((Digits.value 10 ds : Int), rest)
    | '-' :: rest => (readDigits rest).map fun (ds, rest) => (-(Digits.value 10 ds : Int), rest)
    | cs => (readDigits cs).map fun (ds, rest) => ((Digits.value 10 ds : Int), rest)

/-- Reads a number, which a double too large to hold ends in an error. -/
def readNumber (cs : List Char) : Except ReadError (Number × List Char) := do
  let (negative, cs) := match cs with
    | '-' :: rest => (true, rest)
    | cs => (false, cs)
  let (wholeDigits, cs) ← readWhole cs
  let (fraction, cs) ← readFraction cs
  let (exponent, cs) ← readExponent cs
  match Numeral.value? { negative, wholeDigits, fraction, exponent } with
  | some n => return (n, cs)
  | none => throw .malformed

/-! ## Tokens -/

/-- What a value begins with; of arrays and objects only the bracket is read. -/
inductive Token where
  | null
  | bool (b : Bool)
  | number (n : Number)
  | string (s : String)
  | openArray
  | openObject

/-- Reads the token that a value begins with. -/
def readToken : List Char → Reading Token
  | [] => .error .truncated
  | '"' :: rest => (readString [] rest).map fun (s, rest) => (.string s, rest)
  | '[' :: rest => .ok (.openArray, rest)
  | '\x7b' :: rest => .ok (.openObject, rest)
  | 'n' :: rest => (readWord ['u', 'l', 'l'] rest).map fun rest => (.null, rest)
  | 't' :: rest => (readWord ['r', 'u', 'e'] rest).map fun rest => (.bool true, rest)
  | 'f' :: rest => (readWord ['a', 'l', 's', 'e'] rest).map fun rest => (.bool false, rest)
  | c :: rest =>
    if c.isDigit ∨ c = '-' then (readNumber (c :: rest)).map fun (n, rest) => (.number n, rest)
    else .error .malformed

end ProtocolIdent.Json
