import ProtocolIdent.CommandLine

/-!
# The program

Hands the arguments to `runProcess` and its result to the standard streams. The default filter
lets no event through, so a run shows nothing but its report or its complaint. The name of the
program means nothing and is left empty.
-/

/-- Prints the identifier of the version string given as first argument. -/
def main (arguments : List String) : IO UInt32 := do
  let result := ProtocolIdent.runProcess ProtocolIdent.defaultFilter
    ([] :: arguments.map ProtocolIdent.Utf8.encode)
  let stdout ← IO.getStdout
  stdout.write (ByteArray.mk result.stdout.toArray)
  stdout.flush
  IO.eprint result.complaint
  return result.status.toUInt32
