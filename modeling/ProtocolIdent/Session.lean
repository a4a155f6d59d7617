import ProtocolIdent.Header
import ProtocolIdent.Ident.Derive

/-!
# Sessions

A session works on a buffer and a register that holds one identifier. Its steps read, write and
check the header field at any place of the buffer, parse and derive identifiers, and let the
buffer grow and shrink. A step that fails changes nothing.
-/
namespace ProtocolIdent

/-- A stretch of a buffer: from a place, for a length or up to the end. Both ends are cut to the
buffer. -/
structure Window where
  start : Nat := 0
  length : Option Nat := none
  deriving DecidableEq, Repr

namespace Window

/-- The first place inside the window, in a buffer of a size. -/
def first (w : Window) (size : Nat) : Nat :=
  min w.start size

/-- The first place behind the window, in a buffer of a size. -/
def stop (w : Window) (size : Nat) : Nat :=
  match w.length with
  | some n => min (w.first size + n) size
  | none => size

/-- The part of a buffer inside the window. -/
def slice (w : Window) (buffer : List UInt8) : List UInt8 :=
  (buffer.take (w.stop buffer.length)).drop (w.first buffer.length)

/-- The buffer with the part inside the window replaced. -/
def replace (w : Window) (buffer part : List UInt8) : List UInt8 :=
  buffer.take (w.first buffer.length) ++ part ++ buffer.drop (w.stop buffer.length)

end Window

/-- The steps of a session. Where an identifier may be left out, the register stands for it. -/
inductive Step where
  | read (window : Window)
  | write (window : Window) (id : Option Ident)
  | check (window : Window) (id : Option Ident)
  | parse (text : String)
  | derive (data : List UInt8)
  | deriveSlice (window : Window)
  | deriveText (window : Window)
  | append (data : List UInt8)
  | appendText
  | truncate (window : Window)
  deriving DecidableEq, Repr

inductive Answer where
  | ident (id : Ident)
  | written (count : Nat)
  | valid (b : Bool)
  | size (n : Nat)
  deriving DecidableEq, Repr

structure Session where
  buffer : List UInt8
  register : Ident := defaultIdent
  deriving DecidableEq, Repr

/-- The answer of a step and the state after it. -/
structure Outcome where
  answer : Except IdentError Answer
  after : Session

namespace Session

/-- Answers an identifier and keeps it. -/
def keep (s : Session) (id : Ident) : Outcome :=
  { answer := .ok (.ident id), after := { s with register := id } }

def fail (s : Session) (e : IdentError) : Outcome :=
  { answer := .error e, after := s }

/-- Keeps an identifier if there is one. -/
def settle (s : Session) : Except IdentError Ident → Outcome
  | .ok id => s.keep id
  | .error e => s.fail e

/-- Makes a buffer the buffer of the session and answers its size. -/
def resize (s : Session) (buffer : List UInt8) : Outcome :=
  { answer := .ok (.size buffer.length), after := { s with buffer } }

/-- Writes the header field at the front of a window. -/
def put (s : Session) (w : Window) (id : Ident) : Outcome :=
  match Header.write (w.slice s.buffer) id with
  | .ok r =>
    { answer := .ok (.written r.count), after := { s with buffer := w.replace s.buffer r.buffer } }
  | .error e => s.fail e

def step (s : Session) : Step → Logged Outcome
  | .read w => return s.settle (Header.read (w.slice s.buffer))
  | .write w id => return s.put w (id.getD s.register)
  | .check w id => do
    let valid ← Header.check (w.slice s.buffer) (id.getD s.register)
    return { answer := .ok (.valid valid), after := s }
  | .parse text => return s.settle (Ident.ofText text)
  | .derive data => return s.keep (← Ident.deriveBytes data)
  | .deriveSlice w => return s.keep (← Ident.deriveBytes (w.slice s.buffer))
  | .deriveText w => return s.settle (← Ident.deriveText (w.slice s.buffer))
  | .append data => return s.resize (s.buffer ++ data)
  | .appendText => return s.resize (s.buffer ++ Utf8.encode s.register.text)
  | .truncate w => return s.resize (s.buffer.take (w.stop s.buffer.length))

/-- Takes steps in order and gives the outcome of each. -/
def run (s : Session) : List Step → Logged (List Outcome)
  | [] => return []
  | t :: ts => do
    let outcome ← s.step t
    let later ← outcome.after.run ts
    return outcome :: later

end Session

end ProtocolIdent
