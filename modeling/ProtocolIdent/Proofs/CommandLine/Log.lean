import ProtocolIdent.Proofs.CommandLine
import ProtocolIdent.Proofs.Log

/-!
# What a run of the program tells

The arguments are counted before the first of them is read, so what is told of their number does
not depend on what they hold (`entries_ofArguments`). A version string is hashed and told of before
anything of the report is written, so what the sink does with the report is not told
(`entries_write`). Together these are the whole log of a run (`log_of_arguments`).
-/
namespace ProtocolIdent

/-- The version string that a run is about: the default one if there is no argument after the name
of the program, and otherwise the text whose bytes are the first argument. -/
inductive Accepted (argv : List (List UInt8)) : String → Prop where
  | default (alone : argv.length ≤ 1) : Accepted argv "Testing v0.1"
  | given {version : String} (first : argv[1]? = some version.toUTF8.data.toList) :
      Accepted argv version

namespace Told

/-- What is told if there is no argument after the name of the program. -/
def missing (argv : List (List UInt8)) : List Entry :=
  if argv.length ≤ 1 then
    [{ level := .debug
       message := "no version string given, using default"
       fields := [] }]
  else []

/-- What is told of the arguments behind the first. -/
def extra (argv : List (List UInt8)) : List Entry :=
  if 0 < argv.length - 2 then
    [{ level := .debug
       message := "ignoring extra arguments"
       fields := [("ignored", .number (argv.length - 2))] }]
  else []

/-- What is told of a version string: that its bytes were hashed, and then that the report on it
is due. -/
def report (version : String) : List Entry :=
  let bytes := version.toUTF8.data.toList
  let idText := "0x" ++ String.ofList ((Hex.ofBytes (Sha512.digest bytes)).take 8)
  [{ level := .trace
     message := "computed protocol identifier"
     fields := [("len", .number bytes.length), ("id", .text idText)] },
   { level := .debug
     message := "computed identifier"
     fields := [("version", .text version), ("id", .text idText)] }]

theorem report_inj {version other : String} : report version = report other ↔ version = other := by
  constructor
  · intro same
    simp only [report, List.cons.injEq, Entry.mk.injEq, Prod.mk.injEq, FieldValue.text.injEq,
      true_and] at same
    exact same.2.1.1
  · rintro rfl
    rfl

/-- Counting arguments hashes nothing. -/
theorem message_ne_hashed {argv : List (List UInt8)} {entry : Entry}
    (told : entry ∈ missing argv ++ extra argv) :
    entry.message ≠ "computed protocol identifier" := by
  rw [List.mem_append, missing, extra, List.mem_ite_nil_right, List.mem_ite_nil_right,
    List.mem_singleton, List.mem_singleton] at told
  rcases told with ⟨-, rfl⟩ | ⟨-, rfl⟩
  · simp
  · simp

end Told

/-! ## Arguments -/

theorem ofFirst_eq_ok_iff {argv : List (List UInt8)} {version : String} :
    Invocation.ofFirst argv[1]? = .ok { version } ↔ Accepted argv version := by
  constructor
  · intro asked
    cases first : argv[1]? with
    | none =>
      rw [first, ofFirst_none] at asked
      cases asked
      exact .default (List.getElem?_eq_none_iff.mp first)
    | some bytes =>
      by_cases valid : bytes.toByteArray.IsValidUTF8
      · obtain ⟨found, encoded, same⟩ := ofFirst_of_valid valid
        rw [first, same] at asked
        cases asked
        rw [← encoded, Utf8.encode_eq_toUTF8] at first
        exact .given first
      · rw [first, ofFirst_of_invalid valid] at asked
        cases asked
  · intro accepted
    cases accepted with
    | default alone => rw [List.getElem?_eq_none alone, ofFirst_none, defaultVersion]
    | given first =>
      rw [first, ← Utf8.encode_eq_toUTF8, Invocation.ofFirst, versionText_encode]
      rfl

theorem Accepted.unique {argv : List (List UInt8)} {version other : String}
    (accepted : Accepted argv version) (alike : Accepted argv other) : other = version := by
  have asked := ofFirst_eq_ok_iff.mpr alike
  rw [ofFirst_eq_ok_iff.mpr accepted] at asked
  cases asked
  rfl

/-- Nothing is refused but a first argument that is not UTF-8. -/
theorem refused_iff {argv : List (List UInt8)} :
    (¬ ∃ version, Accepted argv version) ↔
      ∃ first, argv[1]? = some first ∧ ¬ first.toByteArray.IsValidUTF8 := by
  constructor
  · intro refused
    cases first : argv[1]? with
    | none => exact absurd ⟨_, .default (List.getElem?_eq_none_iff.mp first)⟩ refused
    | some bytes =>
      refine ⟨bytes, rfl, fun valid => refused ?_⟩
      obtain ⟨version, encoded, -⟩ := ofFirst_of_valid valid
      rw [← encoded, Utf8.encode_eq_toUTF8] at first
      exact ⟨version, .given first⟩
  · rintro ⟨first, given, invalid⟩ ⟨version, accepted⟩
    have asked := ofFirst_eq_ok_iff.mpr accepted
    rw [given, ofFirst_of_invalid invalid] at asked
    cases asked

namespace Invocation

/-- What is told of arguments is told before the first of them is read. -/
theorem entries_ofArguments (argv : List (List UInt8)) :
    (ofArguments argv).entries = Told.missing argv ++ Told.extra argv := by
  -- The number of arguments decides what is told; what the first holds only how it goes on.
  match argv with
  | [] => rfl
  | [_] => rfl
  | [_, first] =>
    rw [ofArguments]
    cases versionText first <;> rfl
  | _ :: first :: second :: more =>
    rw [ofArguments]
    cases versionText first <;> rfl

end Invocation

/-! ## The report -/

/-- What is told of a report is told before it is written, so it does not depend on the sink. -/
theorem Report.entries_write (version : String) (s : Sink) :
    (write version s).entries = Told.report version := by
  have unwritten : (write version s).entries =
      (Ident.derive version).entries ++
        [(Event.reporting version (Ident.ofVersion version)).entry] := by
    rw [write, Logged.entries_bind, Logged.entries_bind, Ident.value_derive]
    -- However the writing ends, nothing is told after it.
    split <;> rfl
  have hashed := Ident.entries_deriveBytes (Utf8.encode version)
  rw [unwritten, Ident.derive, hashed, Ident.ofVersion_eq_ofBytes, Utf8.encode_eq_toUTF8,
    Told.report, ← Ident.text_ofBytes]
  rfl

theorem Invocation.entries_run (invocation : Invocation) (s : Sink) :
    (invocation.run s).entries = Told.report invocation.version := by
  rw [run, Logged.entries_bind, Logged.entries_pure, List.append_nil, Report.entries_write]

/-! ## Whole runs -/

section Run

variable {argv : List (List UInt8)} (sink : Sink)

theorem entries_runArguments_of_accepted {version : String} (accepted : Accepted argv version) :
    (runArguments argv sink).entries =
      Told.missing argv ++ Told.extra argv ++ Told.report version := by
  rw [runArguments, Logged.entries_bind, Invocation.entries_ofArguments,
    Invocation.value_ofArguments, ofFirst_eq_ok_iff.mpr accepted]
  exact congrArg _ (Invocation.entries_run { version } sink)

theorem entries_runArguments_of_refused (refused : ¬ ∃ version, Accepted argv version) :
    (runArguments argv sink).entries = Told.missing argv ++ Told.extra argv := by
  rw [runArguments, Logged.entries_bind, Invocation.entries_ofArguments,
    Invocation.value_ofArguments]
  cases asked : Invocation.ofFirst argv[1]? with
  | ok invocation => exact absurd ⟨_, ofFirst_eq_ok_iff.mp asked⟩ refused
  | error e => exact List.append_nil _

end Run

/-- What is told of a run is first that there is no argument after the name of the program or how
many there are behind the first, whether or not the first is refused, and then, exactly if a
version string is accepted, that its bytes were hashed and that the report on it is due, with the
same identifier. Of a first argument that is refused nothing is hashed. How much of the report the
sink takes, and whether it refuses to flush, makes no difference. -/
theorem log_of_arguments (argv : List (List UInt8)) (sink : Sink) :
    ∃ report, (runArguments argv sink).entries = Told.missing argv ++ Told.extra argv ++ report ∧
      (∀ version, Accepted argv version ↔ (Invocation.ofArguments argv).value = .ok { version }) ∧
      (∀ version, Accepted argv version ↔ report = Told.report version) ∧
      ((∃ version, Accepted argv version) ∨ report = []) ∧
      (∀ first, argv[1]? = some first → ¬ first.toByteArray.IsValidUTF8 →
        report = [] ∧ ∀ entry ∈ (runArguments argv sink).entries,
          entry.message ≠ "computed protocol identifier") ∧
      ∀ other : Sink, (runArguments argv other).entries = (runArguments argv sink).entries := by
  simp only [Invocation.value_ofArguments, ofFirst_eq_ok_iff, implies_true, true_and]
  by_cases taken : ∃ version, Accepted argv version
  · obtain ⟨version, accepted⟩ := taken
    refine ⟨Told.report version, entries_runArguments_of_accepted sink accepted, ?_,
      Or.inl ⟨version, accepted⟩, ?_, ?_⟩
    · intro other
      rw [Told.report_inj]
      exact ⟨fun alike => alike.unique accepted, fun same => same ▸ accepted⟩
    · intro first given invalid
      exact absurd ⟨version, accepted⟩ (refused_iff.mpr ⟨first, given, invalid⟩)
    · intro other
      rw [entries_runArguments_of_accepted other accepted,
        entries_runArguments_of_accepted sink accepted]
  · have told := entries_runArguments_of_refused sink taken
    refine ⟨[], ?_, ?_, Or.inr rfl, ?_, ?_⟩
    · rw [told, List.append_nil]
    · intro version
      exact iff_of_false (fun accepted => taken ⟨version, accepted⟩) nofun
    · intro first given invalid
      rw [told]
      exact ⟨rfl, fun entry => Told.message_ne_hashed⟩
    · intro other
      rw [told, entries_runArguments_of_refused other taken]

/-- A first argument that is refused before another one, on a sink that takes nothing; and one of a
character of two bytes, on sinks without room for the report and without a flush. -/
theorem log_of_refused_argument :
    (runArguments [[], [0x66, 0xff], [0x61]] { capacity := some 0 }).entries =
      [{ level := .debug
         message := "ignoring extra arguments"
         fields := [("ignored", .number 1)] }] ∧
    (runArguments [[], [0xC3, 0xA9]] { capacity := some 19 }).value.1 = .error (.output .full) ∧
    (runArguments [[], [0xC3, 0xA9]] { refusesFlush := true }).value.1 =
      .error (.output .flushRefused) ∧
    (runArguments [[], [0xC3, 0xA9]] { capacity := some 19 }).entries =
      (runArguments [[], [0xC3, 0xA9]] { refusesFlush := true }).entries ∧
    (runArguments [[], [0xC3, 0xA9]] { refusesFlush := true }).entries =
      [{ level := .trace
         message := "computed protocol identifier"
         fields := [("len", .number 2), ("id", .text "0x9e2ad286")] },
       { level := .debug
         message := "computed identifier"
         fields := [("version", .text "é"), ("id", .text "0x9e2ad286")] }] := by
  have cut : ¬ (List.toByteArray [0x66, 0xff]).IsValidUTF8 := by
    rw [← Utf8.decode?_eq_none_iff]
    decide +kernel
  refine ⟨?_, by decide +kernel, by decide +kernel, ?_, ?_⟩
  · obtain ⟨report, told, -, -, -, refused, -⟩ :=
      log_of_arguments [[], [0x66, 0xff], [0x61]] { capacity := some 0 }
    rw [told, (refused _ rfl cut).1]
    rfl
  · obtain ⟨-, -, -, -, -, -, same⟩ :=
      log_of_arguments [[], [0xC3, 0xA9]] { refusesFlush := true }
    exact same { capacity := some 19 }
  · obtain ⟨report, told, -, accepted, -⟩ :=
      log_of_arguments [[], [0xC3, 0xA9]] { refusesFlush := true }
    have first : ([[], [0xC3, 0xA9]] : List (List UInt8))[1]? =
        some "é".toUTF8.data.toList := by
      decide +kernel
    rw [told, (accepted "é").mp (.given first)]
    decide +kernel

end ProtocolIdent
