import ProtocolIdent.Proofs.Header
import ProtocolIdent.Proofs.VersionText

/-!
# What is told

A listener gets an event as a level, a message and fields. That bytes were hashed is told at one
place, which every derivation comes by (`entries_deriveBytes`); that a packet was turned away is
told once, with both texts if it holds an identifier at all (`refuses_of_check`).
-/
namespace ProtocolIdent

/-- An event as a listener gets it. -/
structure Entry where
  level : Level
  message : String
  fields : List (String × FieldValue)
  deriving DecidableEq, Repr

def Event.entry (e : Event) : Entry where
  level := e.level
  message := e.message
  fields := e.fields

/-- What is told in the course of a computation, in order. -/
def Logged.entries {α : Type} (x : Logged α) : List Entry :=
  x.events.map Event.entry

@[simp] theorem Logged.entries_pure {α : Type} (a : α) : (pure a : Logged α).entries = [] := rfl

@[simp] theorem Logged.entries_bind {α β : Type} (x : Logged α) (f : α → Logged β) :
    (x >>= f).entries = x.entries ++ (f x.value).entries :=
  List.map_append

/-! ## Hashing -/

namespace Ident

theorem entries_deriveBytes (bytes : List UInt8) :
    (deriveBytes bytes).entries =
      [{ level := .trace
         message := "computed protocol identifier"
         fields := [("len", .number bytes.length), ("id", .text (ofBytes bytes).text)] }] := rfl

/-- Bytes that are a text are hashed as they are. -/
theorem deriveText_of_ok {bytes : List UInt8} {version : String}
    (text : versionText bytes = .ok version) :
    (deriveText bytes).value = .ok (ofBytes bytes) ∧
      (deriveText bytes).entries = (deriveBytes bytes).entries := by
  rw [deriveText, text, ← versionText_eq_ok_iff.mp text]
  exact ⟨rfl, rfl⟩

theorem deriveText_of_error {bytes : List UInt8} {e : IdentError}
    (noText : versionText bytes = .error e) :
    (deriveText bytes).value = .error e ∧ (deriveText bytes).entries = [] := by
  rw [deriveText, noText]
  exact ⟨rfl, rfl⟩

end Ident

/-! ## Packets that are turned away -/

/-- What is told of bytes that do not begin with the identifier that was expected. -/
structure Entry.Refuses (entry : Entry) (bytes : List UInt8) (expected : Ident) : Prop where
  level : entry.level = .debug
  mismatch : entry.message = "protocol identifier mismatch" ↔ 4 ≤ bytes.length
  texts : 4 ≤ bytes.length → ∃ id idText expectedText, Header.read bytes = .ok id ∧
    entry.fields = [("id", .text idText), ("expected", .text expectedText)] ∧
    idText ≠ expectedText ∧ Ident.ofText idText = .ok id ∧ Ident.ofText expectedText = .ok expected
  absent : bytes.length < 4 → entry.message = "no protocol identifier" ∧
    entry.fields = [("error", .text (IdentError.shortBuffer 4 bytes.length).message)]

namespace Header

variable {bytes : List UInt8} {expected : Ident}

theorem entries_check_of_read (found : read bytes = .ok expected) :
    (check bytes expected).entries = [] := by
  rw [check, found]
  simp

theorem entries_check_of_other {id : Ident} (found : read bytes = .ok id) (other : id ≠ expected) :
    (check bytes expected).entries = [(Event.mismatch id expected).entry] := by
  rw [check, found]
  dsimp only
  rw [if_neg other]
  rfl

theorem entries_check_of_short (short : bytes.length < 4) :
    (check bytes expected).entries = [(Event.noIdent (.shortBuffer 4 bytes.length)).entry] := by
  rw [check, read_of_short short]
  rfl

/-- A check that is answered no is told of once. -/
theorem refuses_of_check (refused : (check bytes expected).value = false) :
    ∃ entry, (check bytes expected).entries = [entry] ∧ entry.Refuses bytes expected := by
  by_cases room : 4 ≤ bytes.length
  · have found := read_of_room room
    have other : Ident.ofField (bytes.take Ident.fieldSize) ≠ expected := by
      intro same
      rw [same, ← accepts_iff_read, ← value_check, refused] at found
      cases found
    refine ⟨_, entries_check_of_other found other, ?_⟩
    exact {
      level := rfl
      mismatch := iff_of_true rfl room
      texts := fun _ => ⟨_, _, _, found, rfl, mt Ident.text_inj.mp other, Ident.ofText_text _,
        Ident.ofText_text _⟩
      absent := fun short => absurd room (Nat.not_le_of_lt short) }
  · have short := Nat.lt_of_not_le room
    have another : "no protocol identifier" ≠ "protocol identifier mismatch" := by decide
    refine ⟨_, entries_check_of_short short, ?_⟩
    exact {
      level := rfl
      mismatch := iff_of_false another room
      texts := fun enough => absurd enough room
      absent := fun _ => ⟨rfl, rfl⟩ }

end Header

end ProtocolIdent
