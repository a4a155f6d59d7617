import ProtocolIdent.Ident.Text
import ProtocolIdent.Proofs.Hex

/-!
# The text of an identifier, written and read

A text is read as an identifier exactly if it is `0x` and digits whose lower-case forms are the
digits of that identifier (`ofText_eq_ok_iff`). So every identifier is read back from its text,
and the texts that are read as one identifier are its own text and those that differ from it in
the case of letters (`text_canonical`).
-/
namespace ProtocolIdent.Ident

@[simp] theorem length_digits (id : Ident) : id.digits.length = digitCount := by
  simp [digits]

@[simp] theorem toList_text (id : Ident) : id.text.toList = '0' :: 'x' :: id.digits := by
  simp [text]

theorem isLower_of_mem_digits {id : Ident} {c : Char} (member : c ∈ id.digits) : Hex.IsLower c := by
  obtain ⟨d, written, rfl⟩ := List.mem_map.mp member
  exact Hex.isLower_digitChar (Digits.mem_fixed_lt (by decide) written)

@[simp] theorem map_toLower_digits (id : Ident) : id.digits.map Char.toLower = id.digits :=
  Hex.map_toLower_of_isLower fun _ => isLower_of_mem_digits

theorem length_of_toLower_eq {cs : List Char} {id : Ident}
    (written : cs.map Char.toLower = id.digits) : cs.length = digitCount := by
  simpa using congrArg List.length written

/-- Digits are read as an identifier exactly if their lower-case forms are its digits. -/
theorem ofDigits?_eq_some_iff {cs : List Char} {id : Ident} :
    ofDigits? cs = some id ↔ cs.map Char.toLower = id.digits := by
  constructor
  · intro read
    unfold ofDigits? at read
    split at read
    · rename_i eight
      obtain ⟨ds, values, rfl⟩ := Option.map_eq_some_iff.mp read
      obtain ⟨small, written⟩ := Hex.mapM_value?_eq_some_iff.mp values
      have length : ds.length = digitCount := by
        have := congrArg List.length written
        simpa [eight] using this.symm
      -- eight digits denote a number of 32 bits
      have bound : Digits.value 16 ds < 2 ^ 32 := by
        have := Digits.value_lt small
        rwa [length] at this
      rw [written, digits, UInt32.toNat_ofNat_of_lt' bound, ← length, Digits.fixed_value small]
    · cases read
  · intro written
    have eight := length_of_toLower_eq written
    have values : cs.mapM Hex.value? = some (Digits.fixed 16 digitCount id.value.toNat) :=
      Hex.mapM_value?_eq_some_iff.mpr ⟨fun d => Digits.mem_fixed_lt (by decide), written⟩
    have bound : id.value.toNat < 16 ^ digitCount := id.value.toNat_lt
    rw [ofDigits?, if_pos eight, values, Option.map_some, Digits.value_fixed,
      Nat.mod_eq_of_lt bound, UInt32.ofNat_toNat]

theorem ofText_eq_ok_iff {s : String} {id : Ident} :
    ofText s = .ok id ↔ ∃ cs, s.toList = '0' :: 'x' :: cs ∧ cs.map Char.toLower = id.digits := by
  constructor
  · intro read
    unfold ofText at read
    split at read
    · rename_i cs shape
      split at read
      · rename_i found digits
        cases read
        exact ⟨cs, shape, ofDigits?_eq_some_iff.mp digits⟩
      · cases read
    · cases read
  · rintro ⟨cs, shape, written⟩
    unfold ofText
    rw [shape]
    simp only [ofDigits?_eq_some_iff.mpr written]

/-- A text that is not read is named in the error. -/
theorem ofText_of_ne_ok {s : String} (refused : ∀ id, ofText s ≠ .ok id) :
    ofText s = .error (.malformed s) := by
  unfold ofText at refused ⊢
  split
  · rename_i cs shape
    split
    · rename_i id digits
      rw [shape] at refused
      simp only [digits] at refused
      exact absurd rfl (refused id)
    · rfl
  · rfl

/-- Every identifier is read back from its text. -/
@[simp] theorem ofText_text (id : Ident) : ofText id.text = .ok id :=
  ofText_eq_ok_iff.mpr ⟨id.digits, toList_text id, map_toLower_digits id⟩

theorem text_inj {a b : Ident} : a.text = b.text ↔ a = b := by
  constructor
  · intro same
    have read := ofText_text a
    rw [same, ofText_text b] at read
    exact (Except.ok.inj read).symm
  · intro same
    rw [same]

theorem digits_inj {a b : Ident} : a.digits = b.digits ↔ a = b := by
  constructor
  · intro same
    apply text_inj.mp
    rw [text, text, same]
  · intro same
    rw [same]

/-- A text that is read becomes the text of its identifier when its letters become lower case. -/
theorem toLower_of_ofText {s : String} {id : Ident} (read : ofText s = .ok id) :
    s.toLower = id.text := by
  obtain ⟨cs, shape, written⟩ := ofText_eq_ok_iff.mp read
  have each : s.toLower = s.map Char.toLower := rfl
  apply String.toList_inj.mp
  rw [each, String.toList_map, shape, toList_text, ← written]
  rfl

/-- The characters behind the prefix are digits one by one. -/
theorem exists_value?_of_mem {cs : List Char} {id : Ident} {c : Char}
    (written : cs.map Char.toLower = id.digits) (member : c ∈ cs) :
    ∃ d, Hex.value? c = some d := by
  have lower : c.toLower ∈ id.digits := written ▸ List.mem_map_of_mem member
  obtain ⟨d, digit, here⟩ := List.mem_map.mp lower
  have small : d < 16 := Digits.mem_fixed_lt (by decide) digit
  exact ⟨d, Hex.value?_eq_some_iff.mpr ⟨small, here.symm⟩⟩

theorem map_lowerLetter_of_ofText {s : String} {id : Ident} (read : ofText s = .ok id) :
    s.map Hex.lowerLetter = id.text := by
  obtain ⟨cs, shape, written⟩ := ofText_eq_ok_iff.mp read
  have letters : cs.map Hex.lowerLetter = cs.map Char.toLower := by
    apply List.map_congr_left
    intro c member
    obtain ⟨d, value⟩ := exists_value?_of_mem written member
    exact Hex.lowerLetter_of_value? value
  apply String.toList_inj.mp
  rw [String.toList_map, shape, toList_text, ← written, ← letters]
  rfl

/-- Two texts that are read are read alike exactly if they differ at most in case. -/
theorem ofText_eq_ofText_iff {s t : String} {a b : Ident} (first : ofText s = .ok a)
    (second : ofText t = .ok b) : ofText s = ofText t ↔ s.toLower = t.toLower := by
  rw [toLower_of_ofText first, toLower_of_ofText second, first, second, Except.ok.injEq, text_inj]

/-- Identifiers and their texts determine each other, every text that is read is the text of its
identifier up to the case of letters, and the texts of identifiers are those that stay the same
when they are read and written again. -/
theorem text_canonical :
    (∀ n : UInt32, ofText (text ⟨n⟩) = .ok ⟨n⟩ ∧
      ∃ cs : List Char, text ⟨n⟩ = "0x" ++ String.ofList cs ∧ cs.length = 8 ∧
        ∀ c ∈ cs, Hex.IsLower c) ∧
    (∀ (s : String) (id : Ident), ofText s = .ok id → id.text = s.map Hex.lowerLetter) ∧
    (∀ s t : String, (∃ id, ofText s = .ok id) → (∃ id, ofText t = .ok id) →
      (ofText s = ofText t ↔ s.toLower = t.toLower)) ∧
    (∀ s : String, (∃ id, ofText s = .ok id ∧ id.text = s) ↔ ∃ id : Ident, id.text = s) := by
  refine ⟨?_, ?_, ?_, ?_⟩
  · intro n
    refine ⟨ofText_text ⟨n⟩, digits ⟨n⟩, ?_, length_digits ⟨n⟩, fun c => isLower_of_mem_digits⟩
    apply String.toList_inj.mp
    simp
  · intro s id read
    exact (map_lowerLetter_of_ofText read).symm
  · rintro s t ⟨a, first⟩ ⟨b, second⟩
    exact ofText_eq_ofText_iff first second
  · intro s
    constructor
    · rintro ⟨id, -, fixed⟩
      exact ⟨id, fixed⟩
    · rintro ⟨id, rfl⟩
      exact ⟨id, ofText_text id, rfl⟩

/-- One identifier in two spellings with a leading zero. -/
theorem text_of_mixed_case :
    ofText "0x0C229d94" = .ok ⟨0x0c229d94⟩ ∧ ofText "0x0c229D94" = .ok ⟨0x0c229d94⟩ ∧
      text ⟨0x0c229d94⟩ = "0x0C229d94".map Hex.lowerLetter ∧
      (ofText "0x0C229d94" = ofText "0x0c229D94" ↔
        "0x0C229d94".toLower = "0x0c229D94".toLower) := by
  have first : ofText "0x0C229d94" = .ok ⟨0x0c229d94⟩ := by decide +kernel
  have second : ofText "0x0c229D94" = .ok ⟨0x0c229d94⟩ := by decide +kernel
  refine ⟨first, second, ?_, ?_⟩
  · exact text_canonical.2.1 "0x0C229d94" ⟨0x0c229d94⟩ first
  · exact text_canonical.2.2.1 "0x0C229d94" "0x0c229D94" ⟨_, first⟩ ⟨_, second⟩

end ProtocolIdent.Ident
