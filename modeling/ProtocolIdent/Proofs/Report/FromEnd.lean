import ProtocolIdent.Proofs.Ident.Grammar
import ProtocolIdent.Proofs.Report.Capacity
import ProtocolIdent.Proofs.Report.Lines

/-!
# The report read from its end

The line of the identifier has a fixed width, and the version string stands in the report as it
was given. A reader who begins at the end of the output finds the identifier without a look at
labels and line feeds, and what is left behind the first label is the version string, whatever it
holds (`report_read_from_end`). A reader by lines can be misled by the same output.
-/
namespace ProtocolIdent

/-- A sink on which a run succeeds holds the whole report behind what it held before. -/
theorem Invocation.taken_of_run {version : String} {sink after : Sink}
    (ran : (Invocation.run { version } sink).value = (.ok (), after)) :
    after.taken = sink.taken ++ Utf8.encode (Report.text version) := by
  rw [value_run, Report.value_write] at ran
  dsimp only at ran
  split at ran
  · rename_i room
    rw [room, List.take_length] at ran
    obtain ⟨-, rfl⟩ := Prod.mk.inj ran
    rfl
  · cases ran

namespace Report

/-! ## A reader that begins at the end -/

/-- The bytes in the place of the version string: those between the first label and the end of its
line. -/
def versionBytes (out : List UInt8) : List UInt8 :=
  (out.take (out.length - 30)).drop 18

/-- The bytes in the place of the identifier: those behind its label in the last line. -/
def identBytes (out : List UInt8) : List UInt8 :=
  ((out.drop (out.length - 29)).drop 18).take 10

/-- The version string and the identifier of an output. -/
def ofEnd? (out : List UInt8) : Option (String × Ident) := do
  let version ← Utf8.decode? (versionBytes out)
  let text ← Utf8.decode? (identBytes out)
  let id ← (Ident.ofText text).toOption
  return (version, id)

/-! ## The parts of a report -/

theorem length_versionLabel : versionLabel.length = 18 := by
  decide

theorem length_identLabel : identLabel.length = 18 := by
  decide

theorem length_identLine (id : Ident) : (identLine id).length = 29 := by
  rw [identLine, List.length_append, List.length_append, length_identLabel,
    Ident.length_encode_text, List.length_singleton]

variable (front : List UInt8) (id : Ident)

theorem drop_of_identLine :
    (front ++ identLine id).drop ((front ++ identLine id).length - 29) = identLine id := by
  apply List.drop_left'
  rw [List.length_append, length_identLine, Nat.add_sub_cancel]

theorem identBytes_of_identLine : identBytes (front ++ identLine id) = Utf8.encode id.text := by
  rw [identBytes, drop_of_identLine, identLine, List.append_assoc,
    List.drop_left' length_identLabel, List.take_left' (Ident.length_encode_text id)]

theorem versionBytes_of_identLine (version : List UInt8) :
    versionBytes (versionLabel ++ version ++ [Lines.lineFeed] ++ identLine id) = version := by
  have length : (versionLabel ++ version ++ [Lines.lineFeed] ++ identLine id).length - 30 =
      (versionLabel ++ version).length := by
    simp only [List.length_append, length_identLine, List.length_singleton]
    omega
  rw [versionBytes, length, List.append_assoc _ [Lines.lineFeed], List.take_left,
    List.drop_left' length_versionLabel]

/-- A report is read from its end as it was written. -/
theorem ofEnd?_text (version : String) :
    ofEnd? (Utf8.encode (text version)) = some (version, Ident.ofVersion version) := by
  rw [encode_text_eq_parts, ofEnd?, versionBytes_of_identLine, identBytes_of_identLine,
    Utf8.decode?_encode, Utf8.decode?_encode]
  simp only [Option.bind_eq_bind, Option.bind_some, Ident.ofText_text]
  rfl

end Report

/-- After a run that succeeds the output ends in a line of 29 bytes, whatever the version string
holds: the label, ten bytes that are read as the identifier of the version string, and a line feed.
Between the label of 18 bytes at the front and the last 30 bytes stand the bytes of the version
string, and hashing these gives the identifier that is printed. So the version string can be read
from the output, and no other version string has the same report. -/
theorem report_read_from_end {version : String} {sink after : Sink}
    (ran : (Invocation.run { version } sink).value = (.ok (), after)) :
    ∃ out ten, after.taken = sink.taken ++ out ∧
      (out.drop (out.length - 29) = Utf8.encode "Proto identifier: " ++ ten ++ [0x0A] ∧
        (out.drop (out.length - 29)).length = 29 ∧ ten.length = 10) ∧
      (∃ text, Utf8.decode? ten = some text ∧
        Ident.ofText text = .ok (Ident.derive version).value) ∧
      (out.take 18 = Utf8.encode "Version string:   " ∧
        (out.take (out.length - 30)).drop 18 = version.toUTF8.data.toList) ∧
      Utf8.encode (Ident.deriveBytes ((out.take (out.length - 30)).drop 18)).value.text = ten ∧
      Report.ofEnd? out = some (version, (Ident.derive version).value) ∧
      ∀ other earlier later, other ≠ version →
        (Invocation.run { version := other } earlier).value = (.ok (), later) →
        later.taken ≠ earlier.taken ++ out := by
  have parts := Report.encode_text_eq_parts version
  have ending := Report.drop_of_identLine
    (Report.versionLabel ++ Utf8.encode version ++ [Lines.lineFeed]) (Ident.ofVersion version)
  have middle := Report.versionBytes_of_identLine (Ident.ofVersion version) (Utf8.encode version)
  rw [← parts] at ending middle
  refine ⟨Utf8.encode (Report.text version), Utf8.encode (Ident.ofVersion version).text,
    Invocation.taken_of_run ran, ⟨ending, ?_, Ident.length_encode_text _⟩,
    ⟨_, Utf8.decode?_encode _, Ident.ofText_text _⟩, ⟨?_, ?_⟩, ?_, Report.ofEnd?_text version, ?_⟩
  · rw [ending, Report.length_identLine]
  · rw [parts, List.append_assoc, List.append_assoc]
    exact List.take_left' Report.length_versionLabel
  · rw [← Utf8.encode_eq_toUTF8]
    exact middle
  · exact congrArg (fun bytes => Utf8.encode (Ident.ofBytes bytes).text) middle
  · intro other earlier later different otherRan same
    rw [Invocation.taken_of_run otherRan, List.append_cancel_left_eq] at same
    have read := Report.ofEnd?_text other
    rw [same, Report.ofEnd?_text version] at read
    cases read
    exact different rfl

/-- The report on a version string that imitates the line of another identifier. -/
theorem forgedVersion_read_from_end :
    ∃ after, (Invocation.run { version := forgedVersion } {}).value = (.ok (), after) ∧
      Report.ofEnd? after.taken = some (forgedVersion, (Ident.derive forgedVersion).value) ∧
      (Ident.derive forgedVersion).value ≠ ⟨0xdeadbeef⟩ := by
  have ran := Invocation.value_run { version := forgedVersion } {}
  rw [Report.value_write_unlimited] at ran
  obtain ⟨out, ten, taken, -, -, -, -, read, -⟩ := report_read_from_end ran
  refine ⟨_, ran, ?_, by decide +kernel⟩
  rw [taken]
  exact read

end ProtocolIdent
