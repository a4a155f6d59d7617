import ProtocolIdent.KnownAnswer
import ProtocolIdent.Proofs.Ident.Error
import ProtocolIdent.Proofs.PacketGate
import ProtocolIdent.Proofs.Traversal

/-!
# Known answers checked in several ways

The checks of a known answer fall into two groups, and within a group they hold or fail together,
whether the answer is right or wrong: the texts are equal exactly if the identifiers are, and
reading, writing and the packet gate agree about the header bytes (`consistent_check`). An answer
that passes both groups has the first bytes of the digest as its header bytes. Rows are loaded up
to the first whose text is no identifier (`known_answer_checks_agree`).
-/
namespace ProtocolIdent

namespace KnownAnswer

/-! ## The two groups of checks -/

/-- What a verdict says about a known answer, and which of its checks go together. -/
structure Consistent (k : KnownAnswer) (v : Verdict) : Prop where
  textMatches : v.textMatches = true ↔ (Ident.textOf k.version).value = k.ident.text
  identMatches : v.identMatches = true ↔ (Ident.derive k.version).value = k.ident
  read : v.read = Header.read k.wire
  writtenMatches : v.writtenMatches = true ↔
    ∃ w, Header.write blankField k.ident = .ok w ∧ w.buffer = k.wire
  accepted : v.accepted = (Header.check k.wire k.ident).value
  text_iff_ident : v.textMatches = true ↔ v.identMatches = true
  read_iff_written : v.read = .ok k.ident ↔ v.writtenMatches = true
  written_iff_accepted : v.writtenMatches = true ↔ v.accepted = true
  digest : v.identMatches = true → v.accepted = true →
    k.wire = (Sha512.digest k.version.toUTF8.data.toList).take 4

theorem textMatches_iff (k : KnownAnswer) :
    (check k).value.textMatches = true ↔ (Ident.textOf k.version).value = k.ident.text := by
  simp only [check, Logged.value_bind, Logged.value_pure, decide_eq_true_eq]

theorem identMatches_iff (k : KnownAnswer) :
    (check k).value.identMatches = true ↔ (Ident.derive k.version).value = k.ident := by
  simp only [check, Logged.value_bind, Logged.value_pure, decide_eq_true_eq]

theorem write_blankField (id : Ident) :
    Header.write blankField id = .ok { count := Ident.fieldSize, buffer := id.field } := by
  rw [Header.write_of_room id (by decide)]
  simp [blankField]

theorem writtenMatches_iff (k : KnownAnswer) :
    (check k).value.writtenMatches = true ↔
      ∃ w, Header.write blankField k.ident = .ok w ∧ w.buffer = k.wire := by
  simp only [check, Logged.value_bind, Logged.value_pure, write_blankField]
  simp

theorem written_iff_field {k : KnownAnswer} :
    (∃ w, Header.write blankField k.ident = .ok w ∧ w.buffer = k.wire) ↔
      k.wire = k.ident.field := by
  rw [write_blankField]
  constructor
  · rintro ⟨w, wrote, same⟩
    cases wrote
    exact same.symm
  · intro same
    exact ⟨_, rfl, same.symm⟩

variable {k : KnownAnswer} (whole : k.wire.length = Ident.fieldSize)
include whole

theorem read_iff_field : Header.read k.wire = .ok k.ident ↔ k.wire = k.ident.field := by
  rw [Header.read_eq_ok_iff, List.take_of_length_le (Nat.le_of_eq whole)]
  exact and_iff_right (Nat.le_of_eq whole.symm)

theorem accepted_iff_field :
    (Header.check k.wire k.ident).value = true ↔ k.wire = k.ident.field := by
  rw [Header.value_check, Header.accepts_iff_read, read_iff_field whole]

theorem consistent_check : Consistent k (check k).value where
  textMatches := textMatches_iff k
  identMatches := identMatches_iff k
  read := rfl
  writtenMatches := writtenMatches_iff k
  accepted := rfl
  text_iff_ident := by
    rw [textMatches_iff, identMatches_iff, Ident.value_textOf, Ident.value_derive, Ident.text_inj]
  read_iff_written := by
    rw [writtenMatches_iff, written_iff_field]
    exact read_iff_field whole
  written_iff_accepted := by
    rw [writtenMatches_iff, written_iff_field]
    exact (accepted_iff_field whole).symm
  digest := by
    intro typed accepted
    have derived := (identMatches_iff k).mp typed
    rw [Ident.value_derive] at derived
    rw [(accepted_iff_field whole).mp accepted, ← derived, Ident.ofVersion_eq_ofBytes,
      Ident.field_ofBytes]
    rfl

end KnownAnswer

/-! ## Lists of rows -/

/-- A row as a document spells it out, with a text for the identifier and four header bytes. -/
structure Row where
  version : String
  text : String
  wire : List UInt8
  whole : wire.length = Ident.fieldSize

namespace Row

def record (row : Row) : Record :=
  { version := row.version, ident := .string row.text, wire := row.wire }

/-- The known answer that a row is read as. -/
def Spells (row : Row) (k : KnownAnswer) : Prop :=
  k.version = row.version ∧ Ident.ofText row.text = .ok k.ident ∧ k.wire = row.wire

theorem ofRecord_eq_ok_iff {row : Row} {k : KnownAnswer} :
    KnownAnswer.ofRecord row.record = .ok k ↔ row.Spells k := by
  constructor
  · intro read
    obtain ⟨id, found, same⟩ := Json.exists_of_map_eq_ok read
    cases same
    exact ⟨rfl, Json.identOfString_eq_ok_iff.mp found, rfl⟩
  · obtain ⟨version, ident, wire⟩ := k
    rintro ⟨rfl, read, rfl⟩
    have found := Json.identOfString_eq_ok_iff.mpr read
    rw [KnownAnswer.ofRecord, record, Json.identOfValue_string, found]
    rfl

theorem ofRecord_of_refused {row : Row} (refused : ∀ id, Ident.ofText row.text ≠ .ok id) :
    KnownAnswer.ofRecord row.record = .error (.ident (.malformed row.text)) := by
  rw [KnownAnswer.ofRecord, record, Json.identOfValue_string, Json.identOfString_of_error refused]
  rfl

theorem exists_spells_iff {row : Row} :
    (∃ k, row.Spells k) ↔ ∃ id, Ident.ofText row.text = .ok id := by
  constructor
  · rintro ⟨k, -, read, -⟩
    exact ⟨k.ident, read⟩
  · rintro ⟨id, read⟩
    exact ⟨{ version := row.version, ident := id, wire := row.wire }, rfl, read, rfl⟩

end Row

namespace KnownAnswer

theorem load_eq_ok_iff {rows : List Row} {answers : List KnownAnswer} :
    load (rows.map Row.record) = .ok answers ↔ List.Forall₂ Row.Spells rows answers := by
  rw [load, mapM_eq_ok_iff, List.forall₂_map_left_iff]
  simp only [Row.ofRecord_eq_ok_iff]

/-- Rows whose texts are all read give an answer each, and of every answer the checks of a group
hold or fail together; an answer that passes both groups has the first bytes of the digest of its
version string. If some text is no identifier, the error is about the first such text. -/
theorem known_answer_checks_agree (rows : List Row) :
    ((∀ row ∈ rows, ∃ id, Ident.ofText row.text = .ok id) →
      ∃ answers, load (rows.map Row.record) = .ok answers ∧
        List.Forall₂ (fun row k => row.Spells k ∧ Consistent k (check k).value) rows answers) ∧
    ((∃ row ∈ rows, ∀ id, Ident.ofText row.text ≠ .ok id) →
      ∃ before bad after, rows = before ++ bad :: after ∧
        (∀ row ∈ before, ∃ id, Ident.ofText row.text = .ok id) ∧
        (∀ id, Ident.ofText bad.text ≠ .ok id) ∧
        ∃ e, load (rows.map Row.record) = .error e ∧ e = .ident (.malformed bad.text) ∧
          e.message = "invalid protocol identifier: " ++ Text.quote bad.text) := by
  constructor
  · intro read
    obtain ⟨answers, spelled⟩ := exists_forall₂ fun row member =>
      Row.exists_spells_iff.mpr (read row member)
    refine ⟨answers, load_eq_ok_iff.mpr spelled, spelled.imp ?_⟩
    intro row k spells
    refine ⟨spells, consistent_check ?_⟩
    rw [spells.2.2, row.whole]
  · rintro ⟨row, member, refused⟩
    have unread : ∃ row ∈ rows, ∀ k, ofRecord row.record ≠ .ok k :=
      ⟨row, member, fun k read => refused k.ident (Row.ofRecord_eq_ok_iff.mp read).2.1⟩
    obtain ⟨before, bad, after, e, split, read, error, stopped⟩ := mapM_eq_error_of_exists unread
    have bads : ∀ id, Ident.ofText bad.text ≠ .ok id := by
      intro id found
      obtain ⟨k, spells⟩ := Row.exists_spells_iff.mpr ⟨id, found⟩
      rw [Row.ofRecord_eq_ok_iff.mpr spells] at error
      cases error
    rw [Row.ofRecord_of_refused bads] at error
    cases error
    refine ⟨before, bad, after, split, ?_, bads, .ident (.malformed bad.text), ?_, rfl,
      IdentError.message_malformed bad.text⟩
    · intro row listed
      obtain ⟨k, found⟩ := read row listed
      exact Row.exists_spells_iff.mp ⟨k, Row.ofRecord_eq_ok_iff.mp found⟩
    · rw [load, List.mapM_map]
      exact stopped

/-- A row in upper case that is right in every check, and the same with an upper-case prefix. -/
theorem known_answer_of_upper_case :
    (∃ k, load [Row.record ⟨"foo", "0xF7FBBA6E", [0xf7, 0xfb, 0xba, 0x6e], rfl⟩] = .ok [k] ∧
      (check k).value.textMatches = true ∧
      k.wire = (Sha512.digest "foo".toUTF8.data.toList).take 4) ∧
    load [Row.record ⟨"foo", "0xF7FBBA6E", [0xf7, 0xfb, 0xba, 0x6e], rfl⟩,
        Row.record ⟨"foo", "0XF7FBBA6E", [0xf7, 0xfb, 0xba, 0x6e], rfl⟩] =
      .error (.ident (.malformed "0XF7FBBA6E")) := by
  have read : Ident.ofText "0xF7FBBA6E" = .ok ⟨0xf7fbba6e⟩ := by decide +kernel
  have refused : Ident.ofText "0XF7FBBA6E" = .error (.malformed "0XF7FBBA6E") := by
    decide +kernel
  constructor
  · obtain ⟨answers, loaded, consistent⟩ :=
      (known_answer_checks_agree [⟨"foo", "0xF7FBBA6E", [0xf7, 0xfb, 0xba, 0x6e], rfl⟩]).1
        (by simpa using ⟨_, read⟩)
    obtain ⟨⟨version, ident, wire⟩, rest, ⟨spells, checks⟩, none, rfl⟩ :=
      List.forall₂_cons_left_iff.mp consistent
    obtain ⟨rfl, found, rfl⟩ := spells
    cases List.forall₂_nil_left_iff.mp none
    cases read.symm.trans found
    have typed := checks.identMatches.mpr (by decide +kernel)
    exact ⟨_, loaded, checks.text_iff_ident.mpr typed, checks.digest typed (by decide +kernel)⟩
  · obtain ⟨before, bad, after, split, reads, bads, e, stopped, rfl, -⟩ :=
      (known_answer_checks_agree [⟨"foo", "0xF7FBBA6E", [0xf7, 0xfb, 0xba, 0x6e], rfl⟩,
        ⟨"foo", "0XF7FBBA6E", [0xf7, 0xfb, 0xba, 0x6e], rfl⟩]).2
        ⟨_, List.mem_cons_of_mem _ List.mem_cons_self, by simp [refused]⟩
    -- the first row is read, so the second is the one that stops
    match before with
    | [] =>
      cases split
      exact absurd read (bads _)
    | [_] =>
      cases split
      exact stopped
    | _ :: _ :: _ => simp at split

end KnownAnswer

end ProtocolIdent
