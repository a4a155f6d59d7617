import ProtocolIdent.Ident.Error
import ProtocolIdent.Proofs.Text.Quoted

/-!
# Messages tell errors apart

The message of an error determines its cause and all that the cause keeps, and so does the text
written while debugging (`message_inj`, `debugText_inj`): the three shapes begin with different
letters, and inside each of them it can be told where a quoted text or a number ends. A message is
one line (`not_isControl_of_mem_message`).
-/
namespace ProtocolIdent.IdentError

open Text

/-! ## The three shapes -/

theorem message_notText (lossy : String) :
    (notText lossy).message = "version string is not valid UTF-8: " ++ quote lossy := rfl

theorem message_malformed (input : String) :
    (malformed input).message = "invalid protocol identifier: " ++ quote input := rfl

theorem message_shortBuffer (needed actual : Nat) :
    (shortBuffer needed actual).message =
      "buffer too short for protocol identifier: need " ++ toString needed ++ " bytes, got "
        ++ toString actual := rfl

theorem debugText_notText (lossy : String) :
    (notText lossy).debugText = "Encoding \x7b lossy: " ++ quote lossy ++ " \x7d" := rfl

theorem debugText_malformed (input : String) :
    (malformed input).debugText = "InvalidFormat(" ++ quote input ++ ")" := rfl

theorem debugText_shortBuffer (needed actual : Nat) :
    (shortBuffer needed actual).debugText =
      "BufferTooShort \x7b needed: " ++ toString needed ++ ", actual: " ++ toString actual
        ++ " \x7d" := rfl

/-- The cause by the letter that a message begins with. -/
def initial : IdentError → Char
  | notText _ => 'v'
  | malformed _ => 'i'
  | shortBuffer .. => 'b'

theorem head?_message (e : IdentError) : e.message.toList.head? = some e.initial := by
  cases e with
  | notText lossy => rw [message_notText]; simp [initial]
  | malformed input => rw [message_malformed]; simp [initial]
  | shortBuffer needed actual => rw [message_shortBuffer]; simp [initial]

/-- The cause by the letter that the text for debugging begins with. -/
def debugInitial : IdentError → Char
  | notText _ => 'E'
  | malformed _ => 'I'
  | shortBuffer .. => 'B'

theorem head?_debugText (e : IdentError) : e.debugText.toList.head? = some e.debugInitial := by
  cases e with
  | notText lossy => rw [debugText_notText]; simp [debugInitial]
  | malformed input => rw [debugText_malformed]; simp [debugInitial]
  | shortBuffer needed actual => rw [debugText_shortBuffer]; simp [debugInitial]

/-! ## What follows a number -/

theorem toString_inj {m n : Nat} : toString m = toString n ↔ m = n := by
  rw [Nat.toString_eq_ofList_toDigits, Nat.toString_eq_ofList_toDigits, String.ofList_inj,
    Digits.toDigits_inj (by decide) (by decide)]

theorem toString_append_inj {m n : Nat} {stop : Char} {u v : String}
    (stops : ∀ d < 10, stop ≠ Nat.digitChar d) :
    toString m ++ (String.singleton stop ++ u) = toString n ++ (String.singleton stop ++ v) ↔
      m = n ∧ u = v := by
  have numbers : Nat.toDigits 10 m ++ stop :: u.toList = Nat.toDigits 10 n ++ stop :: v.toList ↔
      m = n ∧ u.toList = v.toList :=
    Digits.toDigits_append_cons_inj (by decide) (by decide) stops
  rw [String.toList_inj] at numbers
  rw [← numbers, ← String.toList_inj]
  simp

/-- Two numbers can be told from a text that has between them one that begins with no digit. -/
theorem numbers_inj {m m' n n' : Nat} {stop : Char} {between rest : String}
    (stops : ∀ d < 10, stop ≠ Nat.digitChar d) (begins : between = String.singleton stop ++ rest) :
    toString m ++ between ++ toString n = toString m' ++ between ++ toString n' ↔
      m = m' ∧ n = n' := by
  rw [begins, String.append_assoc, String.append_assoc, String.append_assoc, String.append_assoc,
    toString_append_inj stops, String.append_right_inj, toString_inj]

/-! ## Errors and their texts -/

theorem message_inj {e f : IdentError} : e.message = f.message ↔ e = f := by
  refine ⟨fun same => ?_, fun same => by rw [same]⟩
  have letters : e.initial = f.initial := by
    apply Option.some.inj
    rw [← head?_message, ← head?_message, same]
  cases e with
  | notText lossy =>
    cases f with
    | notText lossy' =>
      rw [message_notText, message_notText, String.append_right_inj, quote_inj] at same
      rw [same]
    | malformed | shortBuffer => cases letters
  | malformed input =>
    cases f with
    | malformed input' =>
      rw [message_malformed, message_malformed, String.append_right_inj, quote_inj] at same
      rw [same]
    | notText | shortBuffer => cases letters
  | shortBuffer needed actual =>
    cases f with
    | shortBuffer needed' actual' =>
      have between : " bytes, got " = String.singleton ' ' ++ "bytes, got " := by decide
      rw [message_shortBuffer, message_shortBuffer, String.append_assoc, String.append_assoc,
        String.append_assoc, String.append_assoc, String.append_right_inj, ← String.append_assoc,
        ← String.append_assoc, numbers_inj (by decide) between] at same
      rw [same.1, same.2]
    | notText | malformed => cases letters

theorem debugText_inj {e f : IdentError} : e.debugText = f.debugText ↔ e = f := by
  refine ⟨fun same => ?_, fun same => by rw [same]⟩
  have letters : e.debugInitial = f.debugInitial := by
    apply Option.some.inj
    rw [← head?_debugText, ← head?_debugText, same]
  cases e with
  | notText lossy =>
    cases f with
    | notText lossy' =>
      rw [debugText_notText, debugText_notText, String.append_left_inj, String.append_right_inj,
        quote_inj] at same
      rw [same]
    | malformed | shortBuffer => cases letters
  | malformed input =>
    cases f with
    | malformed input' =>
      rw [debugText_malformed, debugText_malformed, String.append_left_inj,
        String.append_right_inj, quote_inj] at same
      rw [same]
    | notText | shortBuffer => cases letters
  | shortBuffer needed actual =>
    cases f with
    | shortBuffer needed' actual' =>
      have between : ", actual: " = String.singleton ',' ++ " actual: " := by decide
      rw [debugText_shortBuffer, debugText_shortBuffer, String.append_left_inj,
        String.append_assoc, String.append_assoc, String.append_assoc, String.append_assoc,
        String.append_right_inj, ← String.append_assoc, ← String.append_assoc,
        numbers_inj (by decide) between] at same
      rw [same.1, same.2]
    | notText | malformed => cases letters

theorem not_isControl_of_mem_toString {n : Nat} {c : Char} (member : c ∈ (toString n).toList) :
    ¬ IsControl c := by
  rw [Nat.toString_eq_ofList_toDigits, String.toList_ofList] at member
  exact not_isControl_of_mem_toDigits (by decide) (by decide) member

/-- A message is one line, whatever text it is about. -/
theorem not_isControl_of_mem_message {e : IdentError} {c : Char} (member : c ∈ e.message.toList) :
    ¬ IsControl c := by
  cases e with
  | notText lossy =>
    rw [message_notText, String.toList_append, List.mem_append] at member
    exact member.elim (not_isControl_of_all (by decide)) not_isControl_of_mem_quote
  | malformed input =>
    rw [message_malformed, String.toList_append, List.mem_append] at member
    exact member.elim (not_isControl_of_all (by decide)) not_isControl_of_mem_quote
  | shortBuffer needed actual =>
    simp only [message_shortBuffer, String.toList_append, List.mem_append] at member
    rcases member with ((label | number) | between) | number
    · exact not_isControl_of_all (by decide) label
    · exact not_isControl_of_mem_toString number
    · exact not_isControl_of_all (by decide) between
    · exact not_isControl_of_mem_toString number

end ProtocolIdent.IdentError
