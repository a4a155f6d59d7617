import ProtocolIdent.Report

/-!
# The command line

The program takes a version string as its first argument and reports on it; further arguments
mean nothing, and without one it reports on the default version string. Arguments are bytes, and
a version string must be UTF-8. Log events go to standard error, as far as a filter lets them
through; standard output carries the report alone.
-/
namespace ProtocolIdent

structure Invocation where
  version : String := defaultVersion
  deriving DecidableEq, Repr

inductive RunError where
  | argument (cause : IdentError)
  | output (cause : WriteError)
  deriving DecidableEq, Repr

namespace RunError

/-- The messages from the outermost to the innermost cause. -/
def chain : RunError → List String
  | argument cause => ["reading version string argument", cause.message]
  | output cause => [cause.message]

def message : RunError → String
  | argument _ => "reading version string argument"
  | output cause => cause.message

/-- What is written to standard error when a run fails. -/
def complaint : RunError → String
  | argument cause =>
    "Error: reading version string argument\n\nCaused by:\n    " ++ cause.message ++ "\n"
  | output cause => "Error: " ++ cause.message ++ "\n"

end RunError

/-- The invocation that arguments stand for, the name of the program first. -/
def Invocation.ofArguments : List (List UInt8) → Logged (Except RunError Invocation)
  | [] | [_] => do
    Logged.tell .defaultVersion
    return .ok {}
  | _ :: first :: extra => do
    if extra ≠ [] then Logged.tell (.extraArguments extra.length)
    match versionText first with
    | .ok version => return .ok { version }
    | .error e => return .error (.argument e)

def Invocation.run (invocation : Invocation) (sink : Sink) :
    Logged (Except RunError Unit × Sink) := do
  let (result, sink) ← Report.write invocation.version sink
  return (result.mapError .output, sink)

/-- Reads arguments and writes the report that they ask for. -/
def runArguments (arguments : List (List UInt8)) (sink : Sink) :
    Logged (Except RunError Unit × Sink) := do
  match ← Invocation.ofArguments arguments with
  | .ok invocation => invocation.run sink
  | .error e => return (.error e, sink)

def release : String := "0.1.0"

/-- What a process leaves behind: its exit status, the bytes on standard output, and on standard
error the log events shown and the complaint. -/
structure ProcessResult where
  status : UInt8
  stdout : List UInt8
  shown : List Event
  complaint : String
  deriving DecidableEq, Repr

/-- Which events are shown when nothing is said about it: warnings and worse. -/
def defaultFilter (e : Event) : Bool :=
  Level.warn.rank ≤ e.level.rank

/-- A whole run of the program. The filter decides what is shown, and nothing else. -/
def runProcess (filter : Event → Bool) (arguments : List (List UInt8)) : ProcessResult :=
  let r := do
    Logged.tell (.starting release)
    runArguments arguments {}
  { status := match r.value.1 with
      | .ok () => 0
      | .error _ => 1
    stdout := r.value.2.taken
    shown := r.events.filter filter
    complaint := match r.value.1 with
      | .ok () => ""
      | .error e => e.complaint }

end ProtocolIdent
