import ProtocolIdent.Proofs.CommandLine
import ProtocolIdent.Proofs.Ident.Error

/-!
# What is said when something is wrong

Two errors have the same message, or the same text while debugging, only if they are the same
error; and a message never leaves its line. So what a process says about an argument that is not
UTF-8 is always four lines, whatever the argument holds (`messages_faithful`).
-/
namespace ProtocolIdent

open Text

theorem complaint_argument (cause : IdentError) :
    (RunError.argument cause).complaint =
      String.join (["Error: reading version string argument", "", "Caused by:",
        "    " ++ cause.message].map (· ++ "\n")) := by
  have shape : (RunError.argument cause).complaint =
      "Error: reading version string argument\n\nCaused by:\n    " ++ cause.message ++ "\n" := rfl
  rw [shape]
  apply String.toList_inj.mp
  simp

theorem not_isControl_of_mem_lines {cause : IdentError} {line : String} {c : Char}
    (listed : line ∈ ["Error: reading version string argument", "", "Caused by:",
      "    " ++ cause.message]) (member : c ∈ line.toList) : ¬ IsControl c := by
  simp only [List.mem_cons, List.not_mem_nil, or_false] at listed
  rcases listed with rfl | rfl | rfl | rfl
  · exact not_isControl_of_all (by decide) member
  · cases member
  · exact not_isControl_of_all (by decide) member
  · rw [String.toList_append, List.mem_append] at member
    exact member.elim (not_isControl_of_all (by decide)) IdentError.not_isControl_of_mem_message

/-- Messages and texts for debugging determine their errors, no message holds a control
character, and a process whose first argument is not UTF-8 says so in four lines, the last of them
the message under a margin of four spaces. -/
theorem messages_faithful :
    (∀ e f : IdentError,
      (e.message = f.message ↔ e = f) ∧ (e.debugText = f.debugText ↔ e = f)) ∧
    (∀ e : IdentError, ∀ c ∈ e.message.toList, ¬ IsControl c) ∧
    (∀ (argv : List (List UInt8)) (first : List UInt8), argv[1]? = some first →
      ¬ first.toByteArray.IsValidUTF8 →
      (runProcess defaultFilter argv).shown = [] ∧
      ∃ lines : List String,
        lines = ["Error: reading version string argument", "", "Caused by:",
          "    " ++ (IdentError.notText (Utf8.lossy first)).message] ∧
        (runProcess defaultFilter argv).complaint = String.join (lines.map (· ++ "\n")) ∧
        ∀ line ∈ lines, ∀ c ∈ line.toList, ¬ IsControl c) := by
  refine ⟨?_, ?_, ?_⟩
  · exact fun e f => ⟨IdentError.message_inj, IdentError.debugText_inj⟩
  · exact fun e c => IdentError.not_isControl_of_mem_message
  · intro argv first given invalid
    have failed := ofFirst_of_invalid invalid
    rw [← given] at failed
    refine ⟨shown_default argv, _, rfl, ?_, ?_⟩
    · rw [(runProcess_of_error defaultFilter failed).2.2, complaint_argument]
    · exact fun line listed c => not_isControl_of_mem_lines listed

/-- An argument with a line feed and a quote before the byte that is not UTF-8. -/
theorem messages_of_two_lines :
    (∀ c ∈ (IdentError.malformed "0x\n").message.toList, c ≠ '\n') ∧
    (runProcess defaultFilter [[], [0x61, 0x0A, 0x22, 0xff]]).complaint =
      "Error: reading version string argument\n\nCaused by:\n" ++
        "    version string is not valid UTF-8: \"a\\n\\\"\uFFFD\"\n" := by
  obtain ⟨-, oneLine, complaint⟩ := messages_faithful
  have cut : ¬ (List.toByteArray [0x61, 0x0A, 0x22, 0xff]).IsValidUTF8 := by
    rw [← Utf8.decode?_eq_none_iff]
    decide +kernel
  constructor
  · rintro c member rfl
    exact oneLine _ _ member (by decide)
  · obtain ⟨-, lines, rfl, text, -⟩ :=
      complaint [[], [0x61, 0x0A, 0x22, 0xff]] [0x61, 0x0A, 0x22, 0xff] rfl cut
    rw [text]
    decide +kernel

end ProtocolIdent
