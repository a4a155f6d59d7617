import ProtocolIdent.Ident.Derive

/-!
# The report

A report is two lines: the version string and its identifier. It is written piece by piece to a
sink, which may take less than it is offered, and then flushed once.
-/
namespace ProtocolIdent

/-- Why a report was not written: the sink took nothing of what was left, or refused to flush. -/
inductive WriteError where
  | full
  | flushRefused
  deriving DecidableEq, Repr

def WriteError.message : WriteError → String
  | full => "failed to write whole buffer"
  | flushRefused => "flush refused"

/-- Where bytes are written to: it takes at most `capacity` bytes in all, holds those it took,
and counts the calls to flush. -/
structure Sink where
  capacity : Option Nat := none
  refusesFlush : Bool := false
  taken : List UInt8 := []
  flushes : Nat := 0
  deriving DecidableEq, Repr

namespace Sink

/-- How many of the bytes that are offered the sink takes. -/
def room (s : Sink) (offered : Nat) : Nat :=
  match s.capacity with
  | some c => min offered (c - s.taken.length)
  | none => offered

/-- Offers bytes once. The sink takes those at the front, as many as it has room for. -/
def offer (s : Sink) (bytes : List UInt8) : Nat × Sink :=
  let n := s.room bytes.length
  (n, { s with taken := s.taken ++ bytes.take n })

/-- Offers bytes until all are taken, or none of those left is. -/
def writeAll (s : Sink) : List UInt8 → Except WriteError Unit × Sink
  | [] => (.ok (), s)
  | b :: bs =>
    match s.offer (b :: bs) with
    | (0, s) => (.error .full, s)
    | (n + 1, s) => s.writeAll (bs.drop n)
termination_by bytes => bytes.length
decreasing_by
  simp only [List.length_drop, List.length_cons]
  omega

/-- Writes pieces in order, up to the first that is not taken whole. -/
def writePieces (s : Sink) : List (List UInt8) → Except WriteError Unit × Sink
  | [] => (.ok (), s)
  | p :: ps =>
    match s.writeAll p with
    | (.ok (), s) => s.writePieces ps
    | (.error e, s) => (.error e, s)

def flush (s : Sink) : Except WriteError Unit × Sink :=
  (if s.refusesFlush then .error .flushRefused else .ok (), { s with flushes := s.flushes + 1 })

end Sink

namespace Report

def pieces (version identText : String) : List String :=
  ["Version string:   ", version, "\n", "Proto identifier: ", identText, "\n"]

def text (version : String) : String :=
  String.join (pieces version (Ident.ofVersion version).text)

/-- Writes the report on a version string and flushes the sink. -/
def write (version : String) (sink : Sink) : Logged (Except WriteError Unit × Sink) := do
  let id ← Ident.derive version
  Logged.tell (.reporting version id)
  match sink.writePieces ((pieces version id.text).map Utf8.encode) with
  | (.ok (), sink) => return sink.flush
  | (.error e, sink) => return (.error e, sink)

end Report

end ProtocolIdent
