import ProtocolIdent.Proofs.Ident.Field
import ProtocolIdent.Proofs.Session.Step

/-!
# What a session leaves behind

A run is a sequence of turns, and a turn says what its step did to the buffer and to the register:
it may append bytes, write a header field over bytes, or name an identifier. That one turn does
this and no more follows from the rules of its step (`lawful_of_does`); by induction on the steps,
every byte of the final buffer goes back to the turn that created its place and the turns that
wrote over it since (`byte_origin`), and the register to the last turn that named an identifier
(`register_origin`). `run_law` collects both.
-/
namespace ProtocolIdent

/-! ## Turns -/

/-- A step that was taken, with the session before it. -/
structure Turn where
  before : Session
  step : Step
  outcome : Outcome

namespace Turn

/-- The bytes that the turn puts behind the buffer. -/
def appended (turn : Turn) : List UInt8 :=
  match turn.step with
  | .append data => data
  | .appendText => turn.before.register.text.toUTF8.data.toList
  | _ => []

/-- The byte that the turn creates a place with. -/
def created (turn : Turn) (p : Nat) : Option UInt8 :=
  if turn.before.buffer.length ≤ p then turn.appended[p - turn.before.buffer.length]? else none

/-- The byte that the turn writes over a place: of a write that succeeds, one of the four bytes
from the first place of its window on. -/
def overwritten (turn : Turn) (p : Nat) : Option UInt8 :=
  match turn.step, turn.outcome.answer with
  | .write w id, .ok _ =>
    let first := w.first turn.before.buffer.length
    if first ≤ p ∧ p < first + 4 then
      some ((id.getD turn.before.register).bigEndianByte (p - first))
    else none
  | _, _ => none

/-- The identifier that the turn names. -/
def identified (turn : Turn) : Option Ident :=
  match turn.step.identifies, turn.outcome.answer with
  | true, .ok (.ident id) => some id
  | _, _ => none

/-- The size of the buffer after the turn. -/
def sizeAfter (turn : Turn) : Nat :=
  match turn.step with
  | .truncate w => w.stop turn.before.buffer.length
  | _ => turn.before.buffer.length + turn.appended.length

/-- What a turn may do. -/
structure Lawful (turn : Turn) : Prop where
  unchanged : ∀ e, turn.outcome.answer = .error e → turn.outcome.after = turn.before
  size : turn.outcome.after.buffer.length = turn.sizeAfter
  bytes : ∀ p < turn.outcome.after.buffer.length, turn.outcome.after.buffer[p]? =
    (turn.created p).or ((turn.overwritten p).or turn.before.buffer[p]?)
  register : turn.outcome.after.register = turn.identified.getD turn.before.register

variable {turn : Turn}

theorem created_of_appended (nothing : turn.appended = []) (p : Nat) : turn.created p = none := by
  simp [created, nothing]

theorem appended_of_keeps (keeps : turn.step.resizes = false) : turn.appended = [] := by
  unfold appended
  cases kind : turn.step with
  | append | appendText =>
    rw [kind] at keeps
    cases keeps
  | _ => rfl

theorem sizeAfter_of_keeps (keeps : turn.step.resizes = false) :
    turn.sizeAfter = turn.before.buffer.length := by
  rw [sizeAfter, appended_of_keeps keeps]
  cases kind : turn.step with
  | truncate =>
    rw [kind] at keeps
    cases keeps
  | _ => rfl

theorem sizeAfter_le : turn.sizeAfter ≤ turn.before.buffer.length + turn.appended.length := by
  unfold sizeAfter
  split
  · exact Nat.le_add_right_of_le (Window.stop_le _ _)
  · exact Nat.le_refl _

/-- A place that a turn leaves and did not create was there before. -/
theorem Lawful.lt_of_created (lawful : turn.Lawful) {p : Nat}
    (inside : p < turn.outcome.after.buffer.length) (old : turn.created p = none) :
    p < turn.before.buffer.length := by
  rw [lawful.size] at inside
  have grows := turn.sizeAfter_le
  unfold created at old
  split at old
  · rw [List.getElem?_eq_none_iff] at old
    omega
  · omega

end Turn

/-! ## One step -/

namespace Session

open Turn

variable (s : Session)

/-- The turns that leave the buffer as it is. -/
theorem lawful_of_same {t : Step} {outcome : Outcome} (keeps : t.resizes = false)
    (same : outcome.after.buffer = s.buffer) (kept : ∀ p, overwritten ⟨s, t, outcome⟩ p = none)
    (unchanged : ∀ e, outcome.answer = .error e → outcome.after = s)
    (register : outcome.after.register = (identified ⟨s, t, outcome⟩).getD s.register) :
    Lawful ⟨s, t, outcome⟩ where
  unchanged := unchanged
  size := by
    rw [sizeAfter_of_keeps keeps]
    exact congrArg List.length same
  bytes p _ := by
    rw [created_of_appended (appended_of_keeps keeps), kept, same, Option.none_or, Option.none_or]
  register := register

theorem lawful_write {w : Window} {id : Option Ident} (room : 4 ≤ (w.slice s.buffer).length) :
    Lawful ⟨s, .write w id,
      { answer := .ok (.written 4)
        after := { s with
          buffer := s.buffer.take (w.first s.buffer.length) ++ (id.getD s.register).field ++
            s.buffer.drop (w.first s.buffer.length + 4) } }⟩ := by
  have size : (id.getD s.register).field.length = 4 := Ident.length_field _
  have fits : (id.getD s.register).field.length ≤ (w.slice s.buffer).length := by
    rwa [size]
  rw [← size, ← w.replace_front fits]
  constructor
  · exact fun e failed => nomatch failed
  · exact w.length_replace_front fits
  · intro p _
    rw [created_of_appended rfl, Option.none_or]
    refine (w.getElem?_replace_front fits p).trans ?_
    rw [size]
    unfold overwritten
    dsimp only
    by_cases inside : w.first s.buffer.length ≤ p ∧ p < w.first s.buffer.length + 4
    · rw [if_pos inside, if_pos inside, Ident.getElem?_field _ (by omega), Option.some_or]
    · rw [if_neg inside, if_neg inside, Option.none_or]
  · rfl

/-- The new buffer holds nothing but the appended bytes and, at their places, the old ones. -/
theorem lawful_resize {t : Step} (resizes : t.resizes = true) {buffer : List UInt8} {n : Nat}
    (size : buffer.length =
      sizeAfter ⟨s, t, { answer := .ok (.size n), after := { s with buffer } }⟩)
    (bytes : ∀ p < buffer.length, buffer[p]? =
      (created ⟨s, t, { answer := .ok (.size n), after := { s with buffer } }⟩ p).or s.buffer[p]?) :
    Lawful ⟨s, t, { answer := .ok (.size n), after := { s with buffer } }⟩ where
  unchanged _ failed := nomatch failed
  size := size
  bytes p inside := by
    have kept : overwritten ⟨s, t, { answer := .ok (.size n), after := { s with buffer } }⟩ p =
        none := by
      cases t with
      | write => cases resizes
      | _ => rfl
    rw [kept, Option.none_or]
    exact bytes p inside
  register := by
    cases t <;> rfl

theorem getElem?_append_or (buffer data : List UInt8) (p : Nat) :
    (buffer ++ data)[p]? =
      (if buffer.length ≤ p then data[p - buffer.length]? else none).or buffer[p]? := by
  split
  · rename_i behind
    rw [List.getElem?_append_right behind, List.getElem?_eq_none behind, Option.or_none]
  · rename_i inside
    rw [List.getElem?_append_left (Nat.lt_of_not_le inside), Option.none_or]

/-- What the rules of a step make of the buffer and the register. -/
theorem lawful_of_does {t : Step} {outcome : Outcome} (does : s.Does t outcome) :
    Lawful ⟨s, t, outcome⟩ := by
  cases does with
  | name names =>
    cases names <;> exact s.lawful_of_same rfl rfl (fun _ => rfl) (fun _ failed => nomatch failed) rfl
  | write room => exact s.lawful_write room
  | check right =>
    exact s.lawful_of_same rfl rfl (fun _ => rfl) (fun _ failed => nomatch failed) rfl
  | append data =>
    exact s.lawful_resize rfl List.length_append fun p _ => getElem?_append_or _ _ p
  | appendText =>
    exact s.lawful_resize rfl List.length_append fun p _ => getElem?_append_or _ _ p
  | truncate w =>
    have length : (s.buffer.take (w.stop s.buffer.length)).length = w.stop s.buffer.length := by
      rw [List.length_take, Nat.min_eq_left (w.stop_le _)]
    refine s.lawful_resize rfl length fun p inside => ?_
    rw [length] at inside
    rw [created_of_appended rfl, Option.none_or, List.getElem?_take_of_lt inside]
  | refuse refuses =>
    cases refuses <;> exact s.lawful_of_same rfl rfl (fun _ => rfl) (fun _ _ => rfl) rfl

theorem lawful_step (t : Step) : Lawful ⟨s, t, (s.step t).value⟩ :=
  s.lawful_of_does (does_iff.mpr rfl)

/-- A step that may name an identifier is refused, or answers the one that it names and keeps
it. -/
theorem names_of_does {t : Step} {outcome : Outcome} (does : s.Does t outcome)
    (identifies : t.identifies = true) :
    (∃ e, s.Refuses t e ∧ outcome.answer = .error e) ∨
      ∃ id, s.Names t id ∧ outcome.answer = .ok (.ident id) ∧ outcome.after.register = id := by
  cases does with
  | name names => exact .inr ⟨_, names, rfl, rfl⟩
  | refuse refuses => exact .inl ⟨_, refuses, rfl⟩
  | write | check | append | appendText | truncate => cases identifies

/-! ## Runs -/

/-- The turns of a run: every step with the session that the steps before it left, and with its
outcome in the run. -/
def history (steps : List Step) : List Turn :=
  let outcomes := (s.run steps).value
  ((s :: outcomes.map Outcome.after).zip (steps.zip outcomes)).map fun (before, step, outcome) =>
    { before, step, outcome }

/-- The session after a run. -/
def final (steps : List Step) : Session :=
  ((s.run steps).value.map Outcome.after).getLast?.getD s

@[simp] theorem history_cons (t : Step) (ts : List Step) :
    s.history (t :: ts) =
      ⟨s, t, (s.step t).value⟩ :: (s.step t).value.after.history ts := rfl

@[simp] theorem final_cons (t : Step) (ts : List Step) :
    s.final (t :: ts) = (s.step t).value.after.final ts := by
  simp [final, run, List.getLast?_cons]

theorem map_step_history (steps : List Step) : (s.history steps).map Turn.step = steps := by
  induction steps generalizing s with
  | nil => rfl
  | cons t ts ih => rw [history_cons, List.map_cons, ih]

theorem map_outcome_history (steps : List Step) :
    (s.history steps).map Turn.outcome = (s.run steps).value := by
  induction steps generalizing s with
  | nil => rfl
  | cons t ts ih =>
    rw [history_cons, List.map_cons, ih]
    rfl

/-- Every turn of a run is a step of the session before it. -/
theorem outcome_of_mem_history {steps : List Step} {turn : Turn} (member : turn ∈ s.history steps) :
    turn.outcome = (turn.before.step turn.step).value := by
  induction steps generalizing s with
  | nil => cases member
  | cons t ts ih =>
    rw [history_cons, List.mem_cons] at member
    rcases member with rfl | member
    · rfl
    · exact ih _ member

theorem lawful_of_mem_history {steps : List Step} {turn : Turn}
    (member : turn ∈ s.history steps) : turn.Lawful := by
  have lawful := lawful_step turn.before turn.step
  rw [← s.outcome_of_mem_history member] at lawful
  exact lawful

/-- The last value that the turns give counts, and the first turn only if no later one gives any. -/
theorem getLast?_filterMap_cons {α : Type} (gives : Turn → Option α) (turn : Turn)
    (turns : List Turn) (a : α) :
    (((turn :: turns).filterMap gives).getLast?).getD a =
      ((turns.filterMap gives).getLast?).getD ((gives turn).getD a) := by
  cases given : gives turn with
  | none => rw [List.filterMap_cons_none given, Option.getD_none]
  | some b => rw [List.filterMap_cons_some given, List.getLast?_cons, Option.getD_some,
      Option.getD_some]

/-- The byte that a place goes back to, and the turns since: the place was created with it by the
turn before them, or held it when the run began; and none of them created it anew or cut it off. -/
structure Origin (steps : List Step) (p : Nat) (origin : UInt8) (later : List Turn) : Prop where
  created : (later = s.history steps ∧ s.buffer[p]? = some origin) ∨
    ∃ earlier turn, s.history steps = earlier ++ turn :: later ∧ turn.created p = some origin
  kept : ∀ turn ∈ later, turn.created p = none ∧ p < turn.outcome.after.buffer.length

/-- Every byte of the final buffer is the last one written over its place since the place was
created, or else the one that it was created with. -/
theorem byte_origin (steps : List Step) {p : Nat} (inside : p < (s.final steps).buffer.length) :
    ∃ origin later, s.Origin steps p origin later ∧
      (s.final steps).buffer[p]? =
        some (((later.filterMap (·.overwritten p)).getLast?).getD origin) := by
  induction steps generalizing s with
  | nil =>
    have here : s.buffer[p]? = some s.buffer[p] := List.getElem?_eq_getElem inside
    refine ⟨s.buffer[p], [], ⟨.inl ⟨rfl, here⟩, ?_⟩, here⟩
    intro turn member
    cases member
  | cons t ts ih =>
    rw [final_cons] at inside ⊢
    obtain ⟨origin, later, ⟨created, kept⟩, byte⟩ := ih _ inside
    rcases created with ⟨rfl, stood⟩ | ⟨earlier, turn, split, put⟩
    · -- the place outlives all turns after this one: did this one create it?
      have lawful := s.lawful_step t
      have here : p < (s.step t).value.after.buffer.length := (List.getElem?_eq_some_iff.mp stood).1
      have bytes := lawful.bytes p here
      rw [stood] at bytes
      cases fresh : Turn.created ⟨s, t, (s.step t).value⟩ p with
      | some b =>
        rw [fresh, Option.some_or, Option.some.injEq] at bytes
        subst bytes
        exact ⟨_, _, ⟨.inr ⟨[], _, rfl, fresh⟩, kept⟩, byte⟩
      | none =>
        have old : p < s.buffer.length := lawful.lt_of_created here fresh
        have first : s.buffer[p]? = some s.buffer[p] := List.getElem?_eq_getElem old
        rw [fresh, Option.none_or, first, Option.or_some, Option.some.injEq] at bytes
        refine ⟨s.buffer[p], s.history (t :: ts), ⟨.inl ⟨rfl, first⟩, ?_⟩, ?_⟩
        · rw [history_cons]
          exact List.forall_mem_cons.mpr ⟨⟨fresh, here⟩, kept⟩
        · rw [byte, history_cons, getLast?_filterMap_cons, bytes]
    · refine ⟨origin, later, ⟨.inr ⟨⟨s, t, (s.step t).value⟩ :: earlier, turn, ?_, put⟩, kept⟩, byte⟩
      rw [history_cons, split, List.cons_append]

/-- The register holds the identifier that was named last. -/
theorem register_origin (steps : List Step) :
    (s.final steps).register =
      (((s.history steps).filterMap Turn.identified).getLast?).getD s.register := by
  induction steps generalizing s with
  | nil => rfl
  | cons t ts ih =>
    rw [final_cons, ih, history_cons, getLast?_filterMap_cons]
    exact congrArg _ (s.lawful_step t).register

/-- A write succeeds exactly if its window has room for the field. -/
theorem answer_write (w : Window) (id : Option Ident) :
    (s.step (.write w id)).value.answer =
      if 4 ≤ (w.slice s.buffer).length then .ok (.written 4)
      else .error (.shortBuffer 4 (w.slice s.buffer).length) := by
  split
  · rename_i room
    rw [value_of_room room]
  · rename_i short
    rw [value_of_refuses (.write (Nat.lt_of_not_le short))]
    rfl

/-- Whatever the steps of a run are, each is answered once and in order, and has the outcome that
the rules give it and no other, where a window shows the bytes from its start on, as far as its
length and the buffer go. So a step that fails changes nothing; only appending and truncating change
the size of the buffer; a write succeeds exactly if its window has room; a read, a parse or a
derivation that succeeds answers the identifier that it names and leaves it in the register; every
byte of the final buffer is the last one written over its place since the place was created, or
else the one that it was created with; and the register holds the identifier that was named
last. -/
theorem run_law (steps : List Step) :
    ((s.history steps).map Turn.step = steps ∧
      (s.history steps).map Turn.outcome = (s.run steps).value) ∧
    (∀ (w : Window) (buffer : List UInt8),
      w.slice buffer = (buffer.drop w.start).take (w.length.getD buffer.length) ∧
      w.stop buffer.length = min w.start buffer.length + (w.slice buffer).length) ∧
    (∀ turn ∈ s.history steps,
      (∀ outcome, turn.before.Does turn.step outcome ↔ outcome = turn.outcome) ∧
      (∀ e, turn.outcome.answer = .error e → turn.outcome.after = turn.before) ∧
      (turn.step.resizes = false →
        turn.outcome.after.buffer.length = turn.before.buffer.length) ∧
      (∀ w id, turn.step = .write w id → turn.outcome.answer =
        if 4 ≤ (w.slice turn.before.buffer).length then .ok (.written 4)
        else .error (.shortBuffer 4 (w.slice turn.before.buffer).length)) ∧
      (turn.step.identifies = true →
        (∃ e, turn.before.Refuses turn.step e ∧ turn.outcome.answer = .error e) ∨
        ∃ id, turn.before.Names turn.step id ∧ turn.outcome.answer = .ok (.ident id) ∧
          turn.outcome.after.register = id)) ∧
    (∀ p < (s.final steps).buffer.length, ∃ origin later, s.Origin steps p origin later ∧
      (s.final steps).buffer[p]? =
        some (((later.filterMap (·.overwritten p)).getLast?).getD origin)) ∧
    (s.final steps).register =
      (((s.history steps).filterMap Turn.identified).getLast?).getD s.register := by
  refine ⟨⟨s.map_step_history steps, s.map_outcome_history steps⟩,
    fun w buffer => ⟨w.slice_eq buffer, w.stop_eq buffer⟩, ?_,
    fun p => s.byte_origin steps, s.register_origin steps⟩
  intro turn member
  have taken := s.outcome_of_mem_history member
  have lawful := s.lawful_of_mem_history member
  refine ⟨?_, lawful.unchanged, ?_, ?_, ?_⟩
  · intro outcome
    rw [taken]
    exact does_iff
  · intro keeps
    rw [lawful.size, Turn.sizeAfter_of_keeps keeps]
  · intro w id written
    rw [taken, written]
    exact turn.before.answer_write w id
  · intro identifies
    exact turn.before.names_of_does (does_iff.mpr taken) identifies

/-- Two fields that overlap, a window without room for a third, a cut inside the second field,
bytes behind it, a read across the cut, and a text that is read. -/
def overlappingWrites : List Step :=
  [.write {} none, .write { start := 2 } (some ⟨0xdeadd00d⟩), .write { start := 4 } none,
    .truncate { length := some 3 }, .append [9, 9], .read {}, .parse "0x000000AB"]

theorem run_of_overlappingWrites :
    (∃ turn ∈ history { buffer := [1, 2, 3, 4, 5, 6] } overlappingWrites,
      turn.outcome.answer = .error (.shortBuffer 4 2) ∧ turn.outcome.after = turn.before) ∧
    (∃ turn ∈ history { buffer := [1, 2, 3, 4, 5, 6] } overlappingWrites,
      turn.step = .write { start := 2 } (some ⟨0xdeadd00d⟩) ∧ turn.step.resizes = false ∧
        turn.outcome.after.buffer.length = turn.before.buffer.length ∧
        turn.outcome.answer = .ok (.written 4)) ∧
    (∃ turn ∈ history { buffer := [1, 2, 3, 4, 5, 6] } overlappingWrites,
      turn.step = .read {} ∧ turn.step.identifies = true ∧
        turn.outcome.answer = .ok (.ident ⟨0x0c22de09⟩) ∧
        turn.outcome.after.register = ⟨0x0c22de09⟩) ∧
    (2 < (final { buffer := [1, 2, 3, 4, 5, 6] } overlappingWrites).buffer.length ∧
      ∃ origin later, Origin { buffer := [1, 2, 3, 4, 5, 6] } overlappingWrites 2 origin later ∧
        ((later.filterMap (·.overwritten 2)).getLast?).getD origin = 0xde) ∧
    (final { buffer := [1, 2, 3, 4, 5, 6] } overlappingWrites).register = ⟨0xab⟩ := by
  obtain ⟨-, -, turns, bytes, register⟩ :=
    run_law { buffer := [1, 2, 3, 4, 5, 6] } overlappingWrites
  refine ⟨?_, ?_, ?_, ?_, ?_⟩
  · have failed : ((history { buffer := [1, 2, 3, 4, 5, 6] } overlappingWrites).get
        ⟨2, by decide⟩).outcome.answer = .error (.shortBuffer 4 2) := by decide +kernel
    exact ⟨_, List.get_mem _ _, failed, (turns _ (List.get_mem _ _)).2.1 _ failed⟩
  · obtain ⟨-, -, size, answer, -⟩ := turns _ (List.get_mem _ ⟨1, by decide⟩)
    exact ⟨_, List.get_mem _ ⟨1, by decide⟩, rfl, rfl, size rfl, answer _ _ rfl⟩
  · have found : ((history { buffer := [1, 2, 3, 4, 5, 6] } overlappingWrites).get
        ⟨5, by decide⟩).outcome.answer = .ok (.ident ⟨0x0c22de09⟩) := by decide +kernel
    obtain ⟨-, -, -, -, named⟩ := turns _ (List.get_mem _ ⟨5, by decide⟩)
    rcases named rfl with ⟨e, -, refused⟩ | ⟨id, -, answer, kept⟩
    · cases found.symm.trans refused
    · cases found.symm.trans answer
      exact ⟨_, List.get_mem _ ⟨5, by decide⟩, rfl, rfl, found, kept⟩
  · obtain ⟨origin, later, origins, byte⟩ := bytes 2 (by decide)
    have last : (final { buffer := [1, 2, 3, 4, 5, 6] } overlappingWrites).buffer[2]? =
        some 0xde := by decide +kernel
    rw [last, Option.some.injEq] at byte
    exact ⟨by decide, origin, later, origins, byte.symm⟩
  · rw [register]
    decide +kernel

end Session

end ProtocolIdent
