import Mathlib.Logic.ExistsUnique
import ProtocolIdent.Proofs.Ident.Derive
import ProtocolIdent.Proofs.Text.Utf8.Defect

/-!
# The text of bytes from outside

Bytes are taken as a version string exactly if they are the UTF-8 encoding of one, which is to say
if there is no defect at any place (`versionText_takes_utf8`). What is shown of other bytes is the
text around the ill-formed parts, as it stands, and one U+FFFD for each of them
(`lossy_replaces_maximal_parts`).
-/
namespace ProtocolIdent

theorem versionText_eq_ok_iff {bytes : List UInt8} {text : String} :
    versionText bytes = .ok text ↔ Utf8.encode text = bytes := by
  rw [← Utf8.decode?_eq_some_iff, versionText]
  cases Utf8.decode? bytes with
  | none => simp
  | some found => simp

theorem versionText_eq_error_iff_broken {bytes : List UInt8} {e : IdentError} :
    versionText bytes = .error e ↔ e = .notText (Utf8.lossy bytes) ∧ Utf8.Broken bytes := by
  rw [← Utf8.decode?_eq_none_iff_broken, versionText]
  cases Utf8.decode? bytes with
  | none => simp [eq_comm]
  | some found => simp

theorem exists_versionText_error_iff {bytes : List UInt8} :
    (∃ e, versionText bytes = .error e) ↔ Utf8.Broken bytes := by
  simp only [versionText_eq_error_iff_broken, exists_eq_left]

/-- Bytes are taken exactly if they are the encoding of a text, and then as that text, of which
there is one. They are refused exactly if at some place there is an overlong form, a surrogate, a
number that is too great, a byte that leads nothing, a stray tail or a character cut off. -/
theorem versionText_takes_utf8 (bytes : List UInt8) :
    (∀ text, versionText bytes = .ok text ↔
      text.toList.flatMap String.utf8EncodeChar = bytes) ∧
    (∀ text, versionText bytes = .ok text ↔ text.toUTF8.data.toList = bytes) ∧
    ((∃ text, versionText bytes = .ok text) ↔
      ∃! cs : List Char, cs.flatMap String.utf8EncodeChar = bytes) ∧
    (∀ e, versionText bytes = .error e ↔ e = .notText (Utf8.lossy bytes) ∧
      ∃ before rest, bytes = before ++ rest ∧ Utf8.Defect before rest) := by
  refine ⟨fun text => versionText_eq_ok_iff, ?_, ?_, ?_⟩
  · intro text
    rw [← Utf8.encode_eq_toUTF8]
    exact versionText_eq_ok_iff
  · constructor
    · rintro ⟨text, taken⟩
      have encoded := versionText_eq_ok_iff.mp taken
      refine ⟨text.toList, encoded, ?_⟩
      intro cs same
      have alike : Utf8.encode (String.ofList cs) = Utf8.encode text := by
        rw [encoded, Utf8.encode, String.toList_ofList]
        exact same
      rw [← Utf8.encode_inj.mp alike, String.toList_ofList]
    · rintro ⟨cs, encoded, -⟩
      refine ⟨String.ofList cs, versionText_eq_ok_iff.mpr ?_⟩
      rw [Utf8.encode, String.toList_ofList]
      exact encoded
  · intro e
    rw [versionText_eq_error_iff_broken, ← Utf8.decode?_eq_none_iff_broken,
      Utf8.decode?_eq_none_iff_defect]

/-- A character of two bytes alone, and behind a text a byte that leads nothing, a surrogate, a
character cut off before another, and a tail behind a whole character. -/
theorem versionText_of_defects :
    versionText [0xC3, 0xA9] = .ok "é" ∧
    versionText [0x76, 0xFF, 0x31] = .error (.notText "v\uFFFD1") ∧
    versionText [0xE2, 0x82, 0xAC, 0xED, 0xA0, 0x80] = .error (.notText "€\uFFFD\uFFFD\uFFFD") ∧
    versionText [0xF0, 0x9F, 0x98, 0xC3, 0xA9] = .error (.notText "\uFFFDé") ∧
    versionText [0xC3, 0xA9, 0x80] = .error (.notText "é\uFFFD") := by
  refine ⟨?_, ?_, ?_, ?_, ?_⟩
  · exact ((versionText_takes_utf8 _).1 "é").mpr (by decide)
  · exact ((versionText_takes_utf8 _).2.2.2 _).mpr
      ⟨by decide +kernel, [0x76], _, rfl, .noLead (by decide)⟩
  · exact ((versionText_takes_utf8 _).2.2.2 _).mpr
      ⟨by decide +kernel, [0xE2, 0x82, 0xAC], _, rfl, .surrogate (by decide) (by decide)⟩
  · have encoded : String.utf8EncodeChar '😀' = [0xF0, 0x9F, 0x98] ++ [0x80] := by decide
    exact ((versionText_takes_utf8 _).2.2.2 _).mpr
      ⟨by decide +kernel, [], _, rfl, .cut encoded (by decide) (by decide) (by simp [Utf8.IsTail])⟩
  · have whole : [0xC3, 0xA9] = [] ++ String.utf8EncodeChar 'é' := by decide
    exact ((versionText_takes_utf8 _).2.2.2 _).mpr
      ⟨by decide +kernel, [0xC3, 0xA9], _, rfl, .stray (by decide) (Or.inr ⟨[], 'é', whole⟩)⟩

/-- Text around bytes decides nothing about them and is shown as it is. Of bytes that are refused,
what is shown holds U+FFFD and is a text that is taken as it is; it comes from the one division
of the bytes into characters and maximal ill-formed parts, with U+FFFD for each part. -/
theorem lossy_replaces_maximal_parts (bytes : List UInt8) :
    (versionText bytes = .ok (Utf8.lossy bytes) ∨
      versionText bytes = .error (.notText (Utf8.lossy bytes))) ∧
    (∀ before after : String,
      ((∃ e, versionText (before.toUTF8.data.toList ++ bytes ++ after.toUTF8.data.toList) =
        .error e) ↔ ∃ e, versionText bytes = .error e) ∧
      Utf8.lossy (before.toUTF8.data.toList ++ bytes ++ after.toUTF8.data.toList) =
        before ++ Utf8.lossy bytes ++ after) ∧
    (∀ e, versionText bytes = .error e →
      '\uFFFD' ∈ (Utf8.lossy bytes).toList ∧
      versionText (Utf8.lossy bytes).toUTF8.data.toList = .ok (Utf8.lossy bytes) ∧
      Utf8.lossy (Utf8.lossy bytes).toUTF8.data.toList = Utf8.lossy bytes ∧
      ∃ pieces, Utf8.IsSplit bytes pieces ∧ (∀ other, Utf8.IsSplit bytes other → other = pieces) ∧
        Utf8.lossy bytes = String.ofList (pieces.map Utf8.Piece.shown)) := by
  simp only [← Utf8.encode_eq_toUTF8]
  refine ⟨?_, ?_, ?_⟩
  · cases taken : versionText bytes with
    | ok text =>
      rw [← versionText_eq_ok_iff.mp taken, Utf8.lossy_encode]
      exact Or.inl rfl
    | error e =>
      rw [(versionText_eq_error_iff_broken.mp taken).1]
      exact Or.inr rfl
  · intro before after
    rw [exists_versionText_error_iff, exists_versionText_error_iff, Utf8.broken_between_iff]
    exact ⟨Iff.rfl, Utf8.lossy_between before bytes after⟩
  · intro e refused
    have broken := (versionText_eq_error_iff_broken.mp refused).2
    refine ⟨broken.replacement_mem, versionText_encode _, Utf8.lossy_encode _, ?_⟩
    refine ⟨Utf8.split bytes, Utf8.isSplit_split bytes, ?_, rfl⟩
    intro other divided
    exact Utf8.isSplit_iff.mp divided

/-- Two characters cut off and a byte that leads nothing, between two characters of which the
second could complete neither. -/
theorem lossy_of_cut_characters :
    (∃ e, versionText ("é".toUTF8.data.toList ++ [0xE2, 0x82, 0xF0, 0x9F, 0xC0] ++
      "€".toUTF8.data.toList) = .error e) ∧
    Utf8.lossy ("é".toUTF8.data.toList ++ [0xE2, 0x82, 0xF0, 0x9F, 0xC0] ++
      "€".toUTF8.data.toList) = "é\uFFFD\uFFFD\uFFFD€" ∧
    versionText "\uFFFD\uFFFD\uFFFD".toUTF8.data.toList = .ok "\uFFFD\uFFFD\uFFFD" := by
  have shown : Utf8.lossy [0xE2, 0x82, 0xF0, 0x9F, 0xC0] = "\uFFFD\uFFFD\uFFFD" := by
    decide +kernel
  have refused : versionText [0xE2, 0x82, 0xF0, 0x9F, 0xC0] =
      .error (.notText "\uFFFD\uFFFD\uFFFD") := by
    decide +kernel
  obtain ⟨-, between, alone⟩ := lossy_replaces_maximal_parts [0xE2, 0x82, 0xF0, 0x9F, 0xC0]
  obtain ⟨same, around⟩ := between "é" "€"
  have taken := (alone _ refused).2.1
  rw [shown] at around taken
  exact ⟨same.mpr ⟨_, refused⟩, around, taken⟩

end ProtocolIdent
