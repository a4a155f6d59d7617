import ProtocolIdent.Proofs.Log
import ProtocolIdent.Proofs.Session.History

/-!
# What a session tells

What is told in a run can be accounted for by its turns: there is one entry of every turn that
hashed bytes, one of every check that was answered no, and none of any other turn. What one turn
tells is `tells_step`; by induction on the steps, the entries of a run are those of its turns in
order (`log_of_run`).
-/
namespace ProtocolIdent

namespace Turn

/-- The bytes that the turn hashes. A derivation from bytes that were to be a text hashes them only
if it succeeds. -/
def hashed (turn : Turn) : Option (List UInt8) :=
  match turn.step, turn.outcome.answer with
  | .derive data, _ => some data
  | .deriveSlice w, _ => some (w.slice turn.before.buffer)
  | .deriveText w, .ok _ => some (w.slice turn.before.buffer)
  | _, _ => none

/-- The bytes that the turn turns away, and the identifier that was expected of them. -/
def refused (turn : Turn) : Option (List UInt8 × Ident) :=
  match turn.step, turn.outcome.answer with
  | .check w id, .ok (.valid false) =>
    some (w.slice turn.before.buffer, id.getD turn.before.register)
  | _, _ => none

/-- What the turn may tell. -/
structure Tells (turn : Turn) (told : List Entry) : Prop where
  hashed : ∀ bytes, turn.hashed = some bytes →
    turn.outcome.answer = .ok (.ident (Ident.ofBytes bytes)) ∧
      told = [{
        level := .trace
        message := "computed protocol identifier"
        fields := [("len", .number bytes.length), ("id", .text (Ident.ofBytes bytes).text)] }]
  refused : ∀ bytes expected, turn.refused = some (bytes, expected) →
    ∃ entry, told = [entry] ∧ entry.Refuses bytes expected
  silent : turn.hashed = none → turn.refused = none → told = []

theorem tells_of_silent {turn : Turn} (unhashed : turn.hashed = none)
    (unrefused : turn.refused = none) : turn.Tells [] where
  hashed bytes some := by rw [unhashed] at some; cases some
  refused bytes expected some := by rw [unrefused] at some; cases some
  silent _ _ := rfl

theorem tells_of_hashed {turn : Turn} {bytes : List UInt8} (hashed : turn.hashed = some bytes)
    (unrefused : turn.refused = none)
    (answer : turn.outcome.answer = .ok (.ident (Ident.ofBytes bytes))) :
    turn.Tells (Ident.deriveBytes bytes).entries where
  hashed other some := by
    rw [hashed] at some
    cases some
    exact ⟨answer, Ident.entries_deriveBytes bytes⟩
  refused other expected some := by rw [unrefused] at some; cases some
  silent unhashed := by rw [hashed] at unhashed; cases unhashed

theorem tells_of_refused {turn : Turn} {bytes : List UInt8} {expected : Ident} {entry : Entry}
    (unhashed : turn.hashed = none) (refused : turn.refused = some (bytes, expected))
    (refuses : entry.Refuses bytes expected) : turn.Tells [entry] where
  hashed other some := by rw [unhashed] at some; cases some
  refused other others some := by
    rw [refused] at some
    cases some
    exact ⟨entry, rfl, refuses⟩
  silent _ unrefused := by rw [refused] at unrefused; cases unrefused

end Turn

namespace Session

open Turn

variable (s : Session)

theorem tells_check (w : Window) (id : Option Ident) :
    Tells ⟨s, .check w id, (s.step (.check w id)).value⟩ (s.step (.check w id)).entries := by
  have told : (s.step (.check w id)).entries =
      (Header.check (w.slice s.buffer) (id.getD s.register)).entries := by
    rw [step, Logged.entries_bind, Logged.entries_pure, List.append_nil]
  have outcome : (s.step (.check w id)).value =
      { answer := .ok (.valid (Header.check (w.slice s.buffer) (id.getD s.register)).value)
        after := s } := rfl
  rw [told, outcome]
  cases valid : (Header.check (w.slice s.buffer) (id.getD s.register)).value with
  | true =>
    rw [Header.value_check, Header.accepts_iff_read] at valid
    rw [Header.entries_check_of_read valid]
    exact tells_of_silent rfl rfl
  | false =>
    obtain ⟨entry, one, refuses⟩ := Header.refuses_of_check valid
    rw [one]
    exact tells_of_refused rfl rfl refuses

theorem tells_deriveText (w : Window) :
    Tells ⟨s, .deriveText w, (s.step (.deriveText w)).value⟩
      (s.step (.deriveText w)).entries := by
  have told : (s.step (.deriveText w)).entries =
      (Ident.deriveText (w.slice s.buffer)).entries := by
    rw [step, Logged.entries_bind, Logged.entries_pure, List.append_nil]
  have outcome : (s.step (.deriveText w)).value =
      s.settle (Ident.deriveText (w.slice s.buffer)).value := rfl
  rw [told, outcome]
  cases text : versionText (w.slice s.buffer) with
  | ok version =>
    obtain ⟨value, entries⟩ := Ident.deriveText_of_ok text
    rw [value, entries]
    exact tells_of_hashed rfl rfl rfl
  | error e =>
    obtain ⟨value, entries⟩ := Ident.deriveText_of_error text
    rw [value, entries]
    exact tells_of_silent rfl rfl

/-- What one step tells, by its kind. -/
theorem tells_step (t : Step) : Tells ⟨s, t, (s.step t).value⟩ (s.step t).entries := by
  cases t with
  | derive data => exact tells_of_hashed rfl rfl rfl
  | deriveSlice w => exact tells_of_hashed rfl rfl rfl
  | deriveText w => exact s.tells_deriveText w
  | check w id => exact s.tells_check w id
  | read | write | parse | append | appendText | truncate => exact tells_of_silent rfl rfl

theorem entries_run_cons (t : Step) (ts : List Step) :
    (s.run (t :: ts)).entries =
      (s.step t).entries ++ ((s.step t).value.after.run ts).entries := by
  rw [run, Logged.entries_bind, Logged.entries_bind, Logged.entries_pure, List.append_nil]

theorem tells_run (steps : List Step) :
    ∃ groups, (s.run steps).entries = groups.flatten ∧
      List.Forall₂ Turn.Tells (s.history steps) groups := by
  induction steps generalizing s with
  | nil => exact ⟨[], rfl, .nil⟩
  | cons t ts ih =>
    obtain ⟨groups, later, tells⟩ := ih (s.step t).value.after
    refine ⟨(s.step t).entries :: groups, ?_, .cons (s.tells_step t) tells⟩
    rw [entries_run_cons, later, List.flatten_cons]

/-- What a run tells is what its turns tell, in their order: of a turn that hashes bytes how many
they are and the identifier that it answers, of a check that is answered no why, and of any other
turn nothing. -/
theorem log_of_run (steps : List Step) :
    ((s.history steps).map Turn.step = steps ∧
      (s.history steps).map Turn.outcome = (s.run steps).value) ∧
    ∃ groups, (s.run steps).entries = groups.flatten ∧
      List.Forall₂ Turn.Tells (s.history steps) groups :=
  ⟨⟨s.map_step_history steps, s.map_outcome_history steps⟩, s.tells_run steps⟩

/-- A slice of three bytes, a packet of another identifier, bytes that are no text, a check that is
answered yes, and a derivation. -/
example :
    (run { buffer := [0x0c, 0x22, 0x9d, 0x94, 0xff] }
      [.check { length := some 3 } none, .check { start := 1 } none, .deriveText {}, .check {} none,
        .derive []]).entries =
      [{ level := .debug
         message := "no protocol identifier"
         fields := [("error",
          .text "buffer too short for protocol identifier: need 4 bytes, got 3")] },
       { level := .debug
         message := "protocol identifier mismatch"
         fields := [("id", .text "0x229d94ff"), ("expected", .text "0x0c229d94")] },
       { level := .trace
         message := "computed protocol identifier"
         fields := [("len", .number 0), ("id", .text "0xcf83e135")] }] := by
  decide +kernel

end Session

end ProtocolIdent
