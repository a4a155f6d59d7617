import ProtocolIdent.Ident.Text

/-!
# Log events

What the library does is told by events. A computation that logs is a value with the events that
led to it, in order; nothing it returns depends on who listens.
-/
namespace ProtocolIdent

inductive Level where
  | trace | debug | info | warn | error
  deriving DecidableEq, Repr

namespace Level

def name : Level → String
  | trace => "TRACE"
  | debug => "DEBUG"
  | info => "INFO"
  | warn => "WARN"
  | error => "ERROR"

/-- Levels rise with what an event matters. -/
def rank : Level → Nat
  | trace => 0
  | debug => 1
  | info => 2
  | warn => 3
  | error => 4

end Level

/-- What happened: bytes were hashed, a header held another identifier or none, an invocation
gave no version string or more than one argument, a report is due, the program starts. -/
inductive Event where
  | hashed (length : Nat) (id : Ident)
  | mismatch (found expected : Ident)
  | noIdent (cause : IdentError)
  | defaultVersion
  | extraArguments (count : Nat)
  | reporting (version : String) (id : Ident)
  | starting (release : String)
  deriving DecidableEq, Repr

inductive FieldValue where
  | number (n : Nat)
  | text (s : String)
  deriving DecidableEq, Repr

namespace Event

/-- Hashing is told to those who trace, all else to those who debug. -/
def level : Event → Level
  | hashed .. => .trace
  | _ => .debug

def message : Event → String
  | hashed .. => "computed protocol identifier"
  | mismatch .. => "protocol identifier mismatch"
  | noIdent _ => "no protocol identifier"
  | defaultVersion => "no version string given, using default"
  | extraArguments _ => "ignoring extra arguments"
  | reporting .. => "computed identifier"
  | starting _ => "starting protoid"

def fields : Event → List (String × FieldValue)
  | hashed length id => [("len", .number length), ("id", .text id.text)]
  | mismatch found expected => [("id", .text found.text), ("expected", .text expected.text)]
  | noIdent cause => [("error", .text cause.message)]
  | defaultVersion => []
  | extraArguments count => [("ignored", .number count)]
  | reporting version id => [("version", .text version), ("id", .text id.text)]
  | starting release => [("version", .text release)]

end Event

/-- A value and the events that led to it. -/
structure Logged (α : Type) where
  value : α
  events : List Event := []

namespace Logged

instance : Monad Logged where
  pure a := { value := a }
  bind x f :=
    let y := f x.value
    { value := y.value, events := x.events ++ y.events }

def tell (e : Event) : Logged Unit :=
  { value := (), events := [e] }

@[simp] theorem value_pure {α : Type} (a : α) : (pure a : Logged α).value = a := rfl

@[simp] theorem value_bind {α β : Type} (x : Logged α) (f : α → Logged β) :
    (x >>= f).value = (f x.value).value := rfl

end Logged

end ProtocolIdent
