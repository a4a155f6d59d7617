import ProtocolIdent.CommandLine
import ProtocolIdent.Proofs.Report

/-!
# The program by its first argument

What the arguments ask for is decided by the first of them alone (`value_ofArguments`): without it
the program reports on the default version string, with it on its bytes if they are UTF-8, and
otherwise it fails and reports nothing. Further arguments, the name of the program and the log
filter change neither the exit status nor what is written (`process_by_first_argument`).
-/
namespace ProtocolIdent

/-- The invocation that a first argument stands for. -/
def Invocation.ofFirst : Option (List UInt8) → Except RunError Invocation
  | none => .ok {}
  | some first => ((versionText first).map Invocation.mk).mapError .argument

theorem Invocation.value_ofArguments (argv : List (List UInt8)) :
    (Invocation.ofArguments argv).value = Invocation.ofFirst argv[1]? := by
  match argv with
  | [] => rfl
  | [_] => rfl
  | _ :: first :: extra =>
    rw [Invocation.ofArguments]
    simp only [List.getElem?_cons_succ, List.getElem?_cons_zero, ofFirst]
    cases versionText first with
    | ok version => split <;> rfl
    | error e => split <;> rfl

theorem value_runArguments (argv : List (List UInt8)) :
    (runArguments argv {}).value =
      match Invocation.ofFirst argv[1]? with
      | .ok invocation =>
        (.ok (), { taken := Utf8.encode (Report.text invocation.version), flushes := 1 })
      | .error e => (.error e, {}) := by
  rw [runArguments, Logged.value_bind, Invocation.value_ofArguments]
  cases Invocation.ofFirst argv[1]? with
  | ok invocation =>
    simp only [Invocation.run, Logged.value_bind, Report.value_write_unlimited]
    rfl
  | error e => rfl

theorem value_runArguments_of_ok {argv : List (List UInt8)} {invocation : Invocation}
    (asked : Invocation.ofFirst argv[1]? = .ok invocation) :
    (runArguments argv {}).value =
      (.ok (), { taken := Utf8.encode (Report.text invocation.version), flushes := 1 }) := by
  rw [value_runArguments, asked]

theorem value_runArguments_of_error {argv : List (List UInt8)} {e : RunError}
    (failed : Invocation.ofFirst argv[1]? = .error e) :
    (runArguments argv {}).value = (.error e, {}) := by
  rw [value_runArguments, failed]

/-- The events of the library and of the program are below the level of warnings. -/
theorem shown_default (argv : List (List UInt8)) : (runProcess defaultFilter argv).shown = [] := by
  refine List.filter_eq_nil_iff.mpr fun e _ => ?_
  cases e <;> simp [defaultFilter, Event.level, Level.rank]

variable (filter : Event → Bool) {argv : List (List UInt8)}

theorem runProcess_of_ok {invocation : Invocation}
    (asked : Invocation.ofFirst argv[1]? = .ok invocation) :
    (runProcess filter argv).status = 0 ∧
      (runProcess filter argv).stdout = Utf8.encode (Report.text invocation.version) ∧
      (runProcess filter argv).complaint = "" := by
  have result := value_runArguments_of_ok asked
  simp only [runProcess, Logged.value_bind, result, and_self]

theorem runProcess_of_error {e : RunError} (failed : Invocation.ofFirst argv[1]? = .error e) :
    (runProcess filter argv).status = 1 ∧ (runProcess filter argv).stdout = [] ∧
      (runProcess filter argv).complaint = e.complaint := by
  have result := value_runArguments_of_error failed
  simp only [runProcess, Logged.value_bind, result, and_self]

theorem ofFirst_none : Invocation.ofFirst none = .ok {} := rfl

theorem ofFirst_of_valid {first : List UInt8} (valid : first.toByteArray.IsValidUTF8) :
    ∃ version, Utf8.encode version = first ∧
      Invocation.ofFirst (some first) = .ok { version } := by
  cases decoded : Utf8.decode? first with
  | none => exact absurd valid (Utf8.decode?_eq_none_iff.mp decoded)
  | some version =>
    refine ⟨version, Utf8.decode?_eq_some_iff.mp decoded, ?_⟩
    rw [Invocation.ofFirst, versionText, decoded]
    rfl

theorem ofFirst_of_invalid {first : List UInt8} (invalid : ¬ first.toByteArray.IsValidUTF8) :
    Invocation.ofFirst (some first) = .error (.argument (.notText (Utf8.lossy first))) := by
  rw [Invocation.ofFirst, versionText_eq_error_iff.mpr invalid]
  rfl

/-- What the process does depends on its first argument alone. Without it the report on the
default version string is written, with one that is UTF-8 the report on its bytes, and with any
other nothing but a complaint. -/
theorem process_by_first_argument (argv : List (List UInt8)) :
    (argv.length ≤ 1 → (runProcess filter argv).status = 0 ∧
      (runProcess filter argv).stdout =
        Report.ofBytes "Testing v0.1".toUTF8.data.toList ∧
      (runProcess filter argv).complaint = "") ∧
    (∀ first, argv[1]? = some first → first.toByteArray.IsValidUTF8 →
      (runProcess filter argv).status = 0 ∧
      (runProcess filter argv).stdout = Report.ofBytes first ∧
      (runProcess filter argv).complaint = "") ∧
    (∀ first, argv[1]? = some first → ¬ first.toByteArray.IsValidUTF8 →
      (runProcess filter argv).status = 1 ∧ (runProcess filter argv).stdout = [] ∧
      (runArguments argv {}).value.1 = .error (.argument (.notText (Utf8.lossy first))) ∧
      (runProcess filter argv).complaint =
        "Error: reading version string argument\n\nCaused by:\n    " ++
          (IdentError.notText (Utf8.lossy first)).message ++ "\n") ∧
    (runProcess defaultFilter argv).shown = [] ∧
    (∀ (filter' : Event → Bool) (argv' : List (List UInt8)), argv'[1]? = argv[1]? →
      (runProcess filter' argv').status = (runProcess filter argv).status ∧
      (runProcess filter' argv').stdout = (runProcess filter argv).stdout ∧
      (runProcess filter' argv').complaint = (runProcess filter argv).complaint ∧
      (runArguments argv' {}).value.1 = (runArguments argv {}).value.1) := by
  refine ⟨?_, ?_, ?_, shown_default argv, ?_⟩
  · intro alone
    have asked : Invocation.ofFirst argv[1]? = .ok {} := by
      rw [List.getElem?_eq_none alone, ofFirst_none]
    rw [← Report.encode_text]
    exact runProcess_of_ok filter asked
  · intro first given valid
    obtain ⟨version, rfl, asked⟩ := ofFirst_of_valid valid
    rw [Utf8.encode_eq_toUTF8, ← Report.encode_text]
    exact runProcess_of_ok filter (by rw [given]; exact asked)
  · intro first given invalid
    have failed := ofFirst_of_invalid invalid
    rw [← given] at failed
    obtain ⟨status, stdout, complaint⟩ := runProcess_of_error filter failed
    refine ⟨status, stdout, ?_, complaint⟩
    rw [value_runArguments_of_error failed]
  · intro filter' argv' same
    have runs : (runArguments argv' {}).value = (runArguments argv {}).value := by
      rw [value_runArguments, value_runArguments, same]
    simp only [runProcess, Logged.value_bind, runs, and_self]

/-- No argument at all, an empty one, one that is not UTF-8, and one before an argument that is
not UTF-8, under a filter that shows everything. -/
theorem process_of_few_arguments :
    (runProcess defaultFilter []).stdout = Report.ofBytes "Testing v0.1".toUTF8.data.toList ∧
    (runProcess defaultFilter [[], []]).stdout = Report.ofBytes [] ∧
    ((runProcess defaultFilter [[], [0x66, 0xff]]).status = 1 ∧
      (runArguments [[], [0x66, 0xff]] {}).value.1 = .error (.argument (.notText "f\uFFFD"))) ∧
    (runProcess (fun _ => true) [[0x70], [0x66], [0xff]]).stdout =
      (runProcess defaultFilter [[], [0x66]]).stdout := by
  have empty : (List.toByteArray []).IsValidUTF8 := ⟨[], rfl⟩
  have cut : ¬ (List.toByteArray [0x66, 0xff]).IsValidUTF8 := by
    rw [← Utf8.decode?_eq_none_iff]
    decide +kernel
  have shown : Utf8.lossy [0x66, 0xff] = "f\uFFFD" := by decide +kernel
  refine ⟨?_, ?_, ?_, ?_⟩
  · exact ((process_by_first_argument defaultFilter []).1 (by decide)).2.1
  · exact ((process_by_first_argument defaultFilter [[], []]).2.1 [] rfl empty).2.1
  · obtain ⟨status, -, error, -⟩ :=
      (process_by_first_argument defaultFilter [[], [0x66, 0xff]]).2.2.1 [0x66, 0xff] rfl cut
    rw [shown] at error
    exact ⟨status, error⟩
  · exact ((process_by_first_argument defaultFilter [[], [0x66]]).2.2.2.2 (fun _ => true)
      [[0x70], [0x66], [0xff]] rfl).2.1

end ProtocolIdent
