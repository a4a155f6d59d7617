import ProtocolIdent.Proofs.Header
import ProtocolIdent.Proofs.Ident.Grammar
import ProtocolIdent.Proofs.Session.Window
import ProtocolIdent.Proofs.VersionText

/-!
# One step of a session

What a step does depends on its kind and on what it finds. A step that names an identifier answers
it and keeps it; a write puts the field over four bytes of the buffer; a check answers yes or no; a
step that resizes answers the new size; and a step that is refused answers why and changes nothing.
These rules (`Does`) leave no choice: each step has the one outcome that they give (`does_iff`).
-/
namespace ProtocolIdent

/-- The steps that may change the size of the buffer. -/
def Step.resizes : Step → Bool
  | .append _ | .appendText | .truncate _ => true
  | _ => false

/-- The steps that name an identifier when they succeed. -/
def Step.identifies : Step → Bool
  | .read _ | .parse _ | .derive _ | .deriveSlice _ | .deriveText _ => true
  | _ => false

namespace Session

/-! ## The rules -/

/-- The identifier that a step names: the one read at the front of its window or from a text, or
the one of the bytes that it was given or finds inside its window. -/
inductive Names (s : Session) : Step → Ident → Prop where
  | read {w : Window} {id : Ident} (found : Header.read (w.slice s.buffer) = .ok id) :
      Names s (.read w) id
  | parse {text : String} {id : Ident} (found : Ident.ofText text = .ok id) :
      Names s (.parse text) id
  | derive (data : List UInt8) : Names s (.derive data) (Ident.ofBytes data)
  | deriveSlice (w : Window) : Names s (.deriveSlice w) (Ident.ofBytes (w.slice s.buffer))
  | deriveText {w : Window} {version : String}
      (text : version.toUTF8.data.toList = w.slice s.buffer) :
      Names s (.deriveText w) (Ident.ofBytes (w.slice s.buffer))

/-- Why a step is refused: its window has no room for a field, its text has not the form of an
identifier, or the bytes inside its window are no text. -/
inductive Refuses (s : Session) : Step → IdentError → Prop where
  | read {w : Window} (short : (w.slice s.buffer).length < 4) :
      Refuses s (.read w) (.shortBuffer 4 (w.slice s.buffer).length)
  | write {w : Window} {id : Option Ident} (short : (w.slice s.buffer).length < 4) :
      Refuses s (.write w id) (.shortBuffer 4 (w.slice s.buffer).length)
  | parse {text : String} (unread : ∀ id, Ident.ofText text ≠ .ok id) :
      Refuses s (.parse text) (.malformed text)
  | deriveText {w : Window}
      (noText : ∀ version : String, version.toUTF8.data.toList ≠ w.slice s.buffer) :
      Refuses s (.deriveText w) (.notText (Utf8.lossy (w.slice s.buffer)))

/-- What a step answers, and the session after it. -/
inductive Does (s : Session) : Step → Outcome → Prop where
  | name {t : Step} {id : Ident} (names : s.Names t id) :
      Does s t { answer := .ok (.ident id), after := { s with register := id } }
  | write {w : Window} {id : Option Ident} (room : 4 ≤ (w.slice s.buffer).length) :
      Does s (.write w id)
        { answer := .ok (.written 4)
          after := { s with
            buffer := s.buffer.take (w.first s.buffer.length) ++ (id.getD s.register).field ++
              s.buffer.drop (w.first s.buffer.length + 4) } }
  | check {w : Window} {id : Option Ident} {valid : Bool}
      (right : valid = true ↔ Header.read (w.slice s.buffer) = .ok (id.getD s.register)) :
      Does s (.check w id) { answer := .ok (.valid valid), after := s }
  | append (data : List UInt8) :
      Does s (.append data)
        { answer := .ok (.size (s.buffer.length + data.length))
          after := { s with buffer := s.buffer ++ data } }
  | appendText :
      Does s .appendText
        { answer := .ok (.size (s.buffer.length + 10))
          after := { s with buffer := s.buffer ++ s.register.text.toUTF8.data.toList } }
  | truncate (w : Window) :
      Does s (.truncate w)
        { answer := .ok (.size (w.stop s.buffer.length))
          after := { s with buffer := s.buffer.take (w.stop s.buffer.length) } }
  | refuse {t : Step} {e : IdentError} (refuses : s.Refuses t e) :
      Does s t { answer := .error e, after := s }

/-! ## What is done under each rule -/

section Value

variable {s : Session} {t : Step}

theorem value_of_names {id : Ident} (names : s.Names t id) : (s.step t).value = s.keep id := by
  cases names with
  | read found =>
    rw [step, Logged.value_pure, found]
    rfl
  | parse found =>
    rw [step, Logged.value_pure, found]
    rfl
  | derive data => rfl
  | deriveSlice w => rfl
  | @deriveText w version text =>
    rw [← Utf8.encode_eq_toUTF8] at text
    rw [step, Logged.value_bind, Ident.value_deriveText, versionText_eq_ok_iff.mpr text, ← text]
    rfl

theorem value_of_refuses {e : IdentError} (refuses : s.Refuses t e) :
    (s.step t).value = s.fail e := by
  cases refuses with
  | read short =>
    rw [step, Logged.value_pure, Header.read_of_short short]
    rfl
  | write short =>
    rw [step, Logged.value_pure, put, Header.write_of_short _ short]
    rfl
  | parse unread =>
    rw [step, Logged.value_pure, Ident.ofText_of_ne_ok unread]
    rfl
  | @deriveText w noText =>
    rw [step, Logged.value_bind, Ident.value_deriveText]
    cases text : versionText (w.slice s.buffer) with
    | ok version =>
      rw [versionText_eq_ok_iff, Utf8.encode_eq_toUTF8] at text
      exact absurd text (noText version)
    | error e =>
      rw [(versionText_eq_error_iff_broken.mp text).1]
      rfl

theorem value_of_room {w : Window} {id : Option Ident} (room : 4 ≤ (w.slice s.buffer).length) :
    (s.step (.write w id)).value =
      { answer := .ok (.written 4)
        after := { s with
          buffer := s.buffer.take (w.first s.buffer.length) ++ (id.getD s.register).field ++
            s.buffer.drop (w.first s.buffer.length + 4) } } := by
  have size : (id.getD s.register).field.length = 4 := Ident.length_field _
  have exchanged := w.replace_front (show (id.getD s.register).field.length ≤ _ by rwa [size])
  rw [size] at exchanged
  rw [step, Logged.value_pure, put, Header.write_of_room _ room, ← exchanged]
  rfl

/-- The rules leave no choice. -/
theorem Does.eq {outcome : Outcome} (does : s.Does t outcome) : outcome = (s.step t).value := by
  cases does with
  | name names => exact (value_of_names names).symm
  | write room => exact (value_of_room room).symm
  | @check w id valid right =>
    have checked : valid = (Header.check (w.slice s.buffer) (id.getD s.register)).value := by
      rw [Bool.eq_iff_iff, right, Header.value_check, Header.accepts_iff_read]
    rw [checked]
    rfl
  | append data =>
    rw [← List.length_append]
    rfl
  | appendText =>
    rw [← Ident.length_encode_text s.register, ← List.length_append, ← Utf8.encode_eq_toUTF8]
    rfl
  | truncate w =>
    rw [step, Logged.value_pure, resize, List.length_take, Nat.min_eq_left (w.stop_le _)]
  | refuse refuses => exact (value_of_refuses refuses).symm

end Value

/-! ## Every step has an outcome -/

theorem exists_does (s : Session) (t : Step) : ∃ outcome, s.Does t outcome := by
  -- Of the kinds that can be refused, the guard of the refusal is the negation of the other one.
  cases t with
  | read w =>
    by_cases room : 4 ≤ (w.slice s.buffer).length
    · exact ⟨_, .name (.read (Header.read_of_room room))⟩
    · exact ⟨_, .refuse (.read (Nat.lt_of_not_le room))⟩
  | write w id =>
    by_cases room : 4 ≤ (w.slice s.buffer).length
    · exact ⟨_, .write room⟩
    · exact ⟨_, .refuse (.write (Nat.lt_of_not_le room))⟩
  | check w id => exact ⟨_, .check Header.accepts_iff_read⟩
  | parse text =>
    by_cases found : ∃ id, Ident.ofText text = .ok id
    · obtain ⟨id, found⟩ := found
      exact ⟨_, .name (.parse found)⟩
    · exact ⟨_, .refuse (.parse (not_exists.mp found))⟩
  | derive data => exact ⟨_, .name (.derive data)⟩
  | deriveSlice w => exact ⟨_, .name (.deriveSlice w)⟩
  | deriveText w =>
    by_cases text : ∃ version : String, version.toUTF8.data.toList = w.slice s.buffer
    · obtain ⟨version, text⟩ := text
      exact ⟨_, .name (.deriveText text)⟩
    · exact ⟨_, .refuse (.deriveText (not_exists.mp text))⟩
  | append data => exact ⟨_, .append data⟩
  | appendText => exact ⟨_, .appendText⟩
  | truncate w => exact ⟨_, .truncate w⟩

/-- The rules give each step the outcome that it has, and no other. -/
theorem does_iff {s : Session} {t : Step} {outcome : Outcome} :
    s.Does t outcome ↔ outcome = (s.step t).value := by
  constructor
  · exact Does.eq
  · rintro rfl
    obtain ⟨outcome, does⟩ := s.exists_does t
    rw [← does.eq]
    exact does

end Session

end ProtocolIdent
