import ProtocolIdent.CommandLine
import ProtocolIdent.Proofs.Report

/-!
# The report on a sink that fails

A sink that takes a limited number of bytes in all holds the front of the report when the run is
over, however the report is divided into pieces and wherever among them the limit falls. The run
fails for lack of room exactly if the limit is less than the report; only otherwise is the sink
flushed, and then the flush decides (`run_on_limited_sink`).
-/
namespace ProtocolIdent

namespace Sink

variable (capacity : Option Nat) (refusesFlush : Bool)

theorem room_limited (n : Nat) :
    ({ capacity, refusesFlush } : Sink).room n = min n (capacity.getD n) := by
  cases capacity with
  | none => exact (Nat.min_self n).symm
  | some c => rfl

/-- Bytes fit whole exactly if there is no limit below their number. -/
theorem room_limited_eq_iff {n : Nat} :
    ({ capacity, refusesFlush } : Sink).room n = n ↔ ∀ c ∈ capacity, n ≤ c := by
  rw [room_limited]
  cases capacity with
  | none => simp
  | some c => simp

end Sink

namespace Report

/-- The two lines of the report as bytes. -/
def lineBytes (version : String) : List UInt8 :=
  ("Version string:   " ++ version ++ "\n" ++
    "Proto identifier: " ++ (Ident.textOf version).value ++ "\n").toUTF8.data.toList

theorem encode_text_eq_lineBytes (version : String) :
    Utf8.encode (text version) = lineBytes version := by
  rw [lineBytes, ← Utf8.encode_eq_toUTF8]
  apply congrArg
  apply String.toList_inj.mp
  simp [text, pieces]

end Report

theorem Invocation.value_run (invocation : Invocation) (s : Sink) :
    (invocation.run s).value =
      (((Report.write invocation.version s).value.1).mapError .output,
        (Report.write invocation.version s).value.2) := rfl

/-- A run on a sink with or without a limit leaves there the front of the report, as much of it as
the limit allows. It fails for lack of room exactly if that is not the whole report, and then the
sink is not flushed; otherwise it is flushed once, and the run fails if the flush does. -/
theorem run_on_limited_sink (version : String) (capacity : Option Nat) (refusesFlush : Bool) :
    ∃ outcome left,
      (Invocation.run { version } { capacity, refusesFlush }).value = (outcome, left) ∧
      left.taken = (Report.lineBytes version).take
        (min (Report.lineBytes version).length (capacity.getD (Report.lineBytes version).length)) ∧
      (outcome = .error (.output .full) ↔
        ∃ c ∈ capacity, c < (Report.lineBytes version).length) ∧
      ((∃ c ∈ capacity, c < (Report.lineBytes version).length) → left.flushes = 0) ∧
      ((∀ c ∈ capacity, (Report.lineBytes version).length ≤ c) →
        left.flushes = 1 ∧ (outcome = .ok () ↔ refusesFlush = false) ∧
        (refusesFlush = true → outcome = .error (.output .flushRefused))) := by
  generalize bytes : Report.lineBytes version = report
  have least := Sink.room_limited capacity refusesFlush report.length
  have whole := Invocation.value_run { version } { capacity, refusesFlush }
  rw [Report.value_write, Report.encode_text_eq_lineBytes, bytes] at whole
  refine ⟨_, _, whole, ?_⟩
  rw [← least]
  by_cases fits : ∀ c ∈ capacity, report.length ≤ c
  · have room := (Sink.room_limited_eq_iff capacity refusesFlush).mpr fits
    have enough : ¬ ∃ c ∈ capacity, c < report.length := by
      rintro ⟨c, limit, less⟩
      exact Nat.not_lt.mpr (fits c limit) less
    simp only [if_pos room]
    refine ⟨rfl, iff_of_false ?_ enough, fun less => absurd less enough, fun _ => ⟨rfl, ?_⟩⟩
    · cases refusesFlush <;> exact nofun
    · cases refusesFlush with
      | false => exact ⟨iff_of_true rfl rfl, nofun⟩
      | true => exact ⟨iff_of_false nofun nofun, fun _ => rfl⟩
  · have room := mt (Sink.room_limited_eq_iff capacity refusesFlush).mp fits
    simp only [if_neg room]
    have less : ∃ c ∈ capacity, c < report.length := by
      simpa using fits
    exact ⟨rfl, iff_of_true rfl less, fun _ => rfl, fun enough => absurd enough fits⟩

/-- A limit in the middle of a character, and one that the report just keeps to on a sink that
refuses to flush. -/
theorem run_on_sinks_of_few_bytes :
    (∃ left, (Invocation.run { version := "é" } { capacity := some 19 }).value =
        (.error (.output .full), left) ∧
      left.taken = "Version string:   ".toUTF8.data.toList ++ [0xC3] ∧ left.flushes = 0) ∧
    (∃ left,
      (Invocation.run { version := "é" } { capacity := some 50, refusesFlush := true }).value =
        (.error (.output .flushRefused), left) ∧ left.flushes = 1) := by
  have length : (Report.lineBytes "é").length = 50 := by decide +kernel
  constructor
  · obtain ⟨outcome, left, ran, taken, full, unflushed, -⟩ :=
      run_on_limited_sink "é" (some 19) false
    rw [length] at full unflushed
    cases full.mpr (by simp)
    refine ⟨left, ran, ?_, unflushed (by simp)⟩
    rw [taken]
    decide +kernel
  · obtain ⟨outcome, left, ran, -, -, -, flushed⟩ := run_on_limited_sink "é" (some 50) true
    rw [length] at flushed
    obtain ⟨once, -, refused⟩ := flushed (by simp)
    cases refused rfl
    exact ⟨left, ran, once⟩

end ProtocolIdent
