import ProtocolIdent.Ident.Derive
import ProtocolIdent.Proofs.Ident.Field
import ProtocolIdent.Proofs.Sha512.Digest
import ProtocolIdent.Proofs.Text.Utf8.Decode

/-!
# Identifiers of version strings

The text of a derived identifier begins the hexadecimal text of the digest (`text_ofBytes`), and
the digest is that of the standard. A version string has one identifier however it is given: as a
string, as its bytes, or as bytes that must first be seen to be text; bytes that are no text get
none (`derived_text_is_digest_prefix`).
-/
namespace ProtocolIdent

theorem versionText_encode (version : String) :
    versionText (Utf8.encode version) = .ok version := by
  rw [versionText, Utf8.decode?_encode]

theorem versionText_eq_error_iff {bytes : List UInt8} :
    versionText bytes = .error (.notText (Utf8.lossy bytes)) ↔
      ¬ bytes.toByteArray.IsValidUTF8 := by
  rw [← Utf8.decode?_eq_none_iff, versionText]
  cases Utf8.decode? bytes with
  | none => simp
  | some text => simp

namespace Ident

@[simp] theorem value_deriveBytes (bytes : List UInt8) :
    (deriveBytes bytes).value = ofBytes bytes := rfl

@[simp] theorem value_derive (version : String) : (derive version).value = ofVersion version := rfl

@[simp] theorem value_textOf (version : String) :
    (textOf version).value = (ofVersion version).text := rfl

theorem value_deriveText (bytes : List UInt8) :
    (deriveText bytes).value = (versionText bytes).map ofVersion := by
  unfold deriveText
  cases versionText bytes with
  | ok version => rfl
  | error e => rfl

theorem ofVersion_eq_ofBytes (version : String) :
    ofVersion version = ofBytes version.toUTF8.data.toList := by
  rw [ofVersion, Utf8.encode_eq_toUTF8]

theorem length_take_digest (bytes : List UInt8) :
    ((Sha512.digest bytes).take fieldSize).length = fieldSize := rfl

/-- The text is the first eight digits of the digest behind the prefix. -/
theorem text_ofBytes (bytes : List UInt8) :
    (ofBytes bytes).text = "0x" ++ String.ofList ((Hex.ofBytes (Sha512.digest bytes)).take 8) := by
  have front : (Hex.ofBytes (Sha512.digest bytes)).take 8 =
      Hex.ofBytes ((Sha512.digest bytes).take fieldSize) :=
    Hex.take_ofBytes fieldSize (Sha512.digest bytes)
  rw [ofBytes, ofDigest, text_ofField (length_take_digest bytes), front]

/-- The identifier of bytes of any length is written as `0x` and the first eight of the 128 digits
of their digest, which is the digest of the standard. A version string has the identifier of its
UTF-8 bytes at every entry, and the entry that takes bytes from outside refuses exactly those that
are not UTF-8. -/
theorem derived_text_is_digest_prefix :
    (∀ bytes : List UInt8,
      Sha512.Standard.bits (Sha512.digest bytes) =
          Sha512.Standard.digest (Sha512.Standard.bits bytes) ∧
        (Hex.ofBytes (Sha512.digest bytes)).length = 128 ∧
        (deriveBytes bytes).value.text =
          "0x" ++ String.ofList ((Hex.ofBytes (Sha512.digest bytes)).take 8)) ∧
    (∀ version : String,
      (derive version).value = (deriveBytes version.toUTF8.data.toList).value ∧
        (textOf version).value = (deriveBytes version.toUTF8.data.toList).value.text ∧
        (deriveText version.toUTF8.data.toList).value =
          .ok (deriveBytes version.toUTF8.data.toList).value) ∧
    (∀ bytes : List UInt8,
      (deriveText bytes).value = .error (.notText (Utf8.lossy bytes)) ↔
        ¬ bytes.toByteArray.IsValidUTF8) := by
  refine ⟨?_, ?_, ?_⟩
  · intro bytes
    refine ⟨Sha512.bits_digest bytes, ?_, text_ofBytes bytes⟩
    rw [Hex.length_ofBytes, Sha512.length_digest]
  · intro version
    simp only [value_derive, value_deriveBytes, value_textOf, ofVersion_eq_ofBytes, true_and]
    rw [value_deriveText, ← Utf8.encode_eq_toUTF8, versionText_encode]
    rfl
  · intro bytes
    rw [value_deriveText, ← versionText_eq_error_iff]
    cases versionText bytes with
    | ok version => simp [Except.map]
    | error e => simp [Except.map]

example : (textOf defaultVersion).value = defaultIdent.text := by decide +kernel

end Ident

end ProtocolIdent
