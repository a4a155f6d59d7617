import ProtocolIdent.Proofs.Format.Template

/-!
# Identifiers in hexadecimal

An identifier is written in hexadecimal as its number, without leading zeros unless the flags ask
for a width. Padded with zeros to eight digits it is written as in its text, and is read back from
there in either case (`flags_pad_hexadecimal`). The text itself takes no flags.
-/
namespace ProtocolIdent.Format

/-- The eight digits of the text are those of the number with zeros before them. -/
theorem replicate_append_lower (id : Ident) :
    List.replicate (8 - (Radix.lowerHex.digits id.value.toNat).length) '0' ++
      Radix.lowerHex.digits id.value.toNat = id.digits :=
  Digits.replicate_append_toDigits (by decide) (by decide) id.value.toNat_lt

theorem replicate_append_upper (id : Ident) :
    List.replicate (8 - (Radix.upperHex.digits id.value.toNat).length) '0' ++
      Radix.upperHex.digits id.value.toNat = id.digits.map Char.toUpper := by
  rw [← replicate_append_lower, List.map_append, List.map_replicate]
  simp [Radix.digits]

theorem map_toLower_map_toUpper (id : Ident) :
    (id.digits.map Char.toUpper).map Char.toLower = id.digits := by
  have all : ∀ d < 16, (Nat.digitChar d).toUpper.toLower = Nat.digitChar d := by decide
  rw [Ident.digits, List.map_map, List.map_map]
  exact List.map_congr_left fun d member => all d (Digits.mem_fixed_lt (by decide) member)

namespace Spec

variable (spec : Spec) (id : Ident) (radix : Radix)

theorem toList_render_number :
    (render { spec with form := .number radix } id).toList =
      (spec.padding ((spec.lead radix).length + (radix.digits id.value.toNat).length)).around
        (spec.lead radix) (radix.digits id.value.toNat) :=
  String.toList_ofList.trans (spec.number_eq_around radix id.value.toNat)

/-- A zero flag and a width for eight digits put zeros before the number up to eight digits. -/
theorem render_eight (zero : spec.zero = true)
    (width : spec.width = (spec.lead radix).length + 8) :
    Template.render { segments := [.placeholder { spec with form := .number radix }] } id =
      String.ofList (spec.lead radix ++
        (List.replicate (8 - (radix.digits id.value.toNat).length) '0' ++
          radix.digits id.value.toNat)) := by
  have room : spec.width - ((spec.lead radix).length + (radix.digits id.value.toNat).length) =
      8 - (radix.digits id.value.toNat).length := by
    omega
  apply String.toList_inj.mp
  rw [Template.render_placeholder, toList_render_number, padding_of_zero zero, room]
  simp [Padding.around]

end Spec

/-- The digits of the text are read behind `0x` in either case. -/
theorem ofText_of_digits (id : Ident) :
    Ident.ofText ("0x" ++ String.ofList id.digits) = .ok id ∧
      Ident.ofText ("0x" ++ String.ofList (id.digits.map Char.toUpper)) = .ok id := by
  constructor
  · exact Ident.ofText_eq_ok_iff.mpr ⟨id.digits, by simp, id.map_toLower_digits⟩
  · exact Ident.ofText_eq_ok_iff.mpr
      ⟨id.digits.map Char.toUpper, by simp, map_toLower_map_toUpper id⟩

/-- The text of an identifier is ten characters whatever the flags are. In hexadecimal the flags
pad sign, mark and digits to their width and change none of these; in upper case only the digits
are other letters. Padded with zeros to eight digits, the number is written as in the text, and is
read from there in either case. All flags can be asked for in a template. -/
theorem flags_pad_hexadecimal (spec : Spec) (id : Ident) :
    (Spec.render { spec with form := .text } id = id.text ∧ id.text.length = 10) ∧
    (∃ digits, Hex.IsNumeral digits id.value.toNat) ∧
    (∀ lead digits,
      lead = (if spec.plus then ['+'] else []) ++ (if spec.alternate then ['0', 'x'] else []) →
      Hex.IsNumeral digits id.value.toNat →
      ∃ p : Padding, spec.Pads (lead ++ digits).length p ∧
        (Spec.render { spec with form := .number .lowerHex } id).toList = p.around lead digits ∧
        (Spec.render { spec with form := .number .upperHex } id).toList =
          p.around lead (digits.map Char.toUpper)) ∧
    (∃ t, Template.ofText? "\x7b:#010x\x7d" = some t ∧ t.render id = id.text) ∧
    (∃ t, Template.ofText? "\x7b:08x\x7d" = some t ∧
      (t.render id).toList = id.text.toList.drop 2 ∧ Ident.ofText ("0x" ++ t.render id) = .ok id) ∧
    (∃ t, Template.ofText? "\x7b:08X\x7d" = some t ∧ Ident.ofText ("0x" ++ t.render id) = .ok id) ∧
    (∀ name form, Form.ofName? name = some form → (spec.align = none → spec.fill = ' ') →
      spec.fill ≠ '\x7d' → ∃ t, Template.ofText? (spec.placeholder name) = some t ∧
        t.render id = Spec.render { spec with form } id) := by
  have marked := Spec.render_eight { alternate := true, zero := true, width := 10 } id .lowerHex
    rfl rfl
  have lower := Spec.render_eight { zero := true, width := 8 } id .lowerHex rfl rfl
  have upper := Spec.render_eight { zero := true, width := 8 } id .upperHex rfl rfl
  rw [replicate_append_lower] at marked lower
  rw [replicate_append_upper] at upper
  obtain ⟨lowerRead, upperRead⟩ := ofText_of_digits id
  refine ⟨⟨rfl, ?_⟩, ⟨_, Hex.isNumeral_minimal _⟩, ?_, ?_, ?_, ?_, ?_⟩
  · rw [← String.length_toList, Ident.toList_text, List.length_cons, List.length_cons,
      Ident.length_digits]
    rfl
  · intro lead digits written numeral
    subst written
    rw [Hex.isNumeral_iff.mp numeral]
    refine ⟨_, spec.pads_padding _, ?_, ?_⟩
    · rw [Spec.toList_render_number, List.length_append]
      rfl
    · rw [Spec.toList_render_number, List.length_append]
      simp only [Radix.digits, List.length_map]
      rfl
  · exact ⟨_, by decide +kernel, marked⟩
  · have read : Template.ofText? "\x7b:08x\x7d" =
        some ⟨[.placeholder { zero := true, width := 8, form := .number .lowerHex }]⟩ := by
      decide +kernel
    refine ⟨_, read, ?_, ?_⟩
    · rw [lower, Ident.toList_text, String.toList_ofList]
      rfl
    · rw [lower]
      exact lowerRead
  · have read : Template.ofText? "\x7b:08X\x7d" =
        some ⟨[.placeholder { zero := true, width := 8, form := .number .upperHex }]⟩ := by
      decide +kernel
    refine ⟨_, read, ?_⟩
    rw [upper]
    exact upperRead
  · intro name form named plain fill
    exact ⟨_, ofText?_placeholder named plain fill, Template.render_placeholder _ id⟩

/-- A field of twelve characters for a centred number with sign and mark. -/
def centredField : Spec where
  fill := '*'
  align := some .centre
  plus := true
  alternate := true
  width := 12

/-- A number of two digits in that field leaves an odd room. -/
theorem flags_of_centredField :
    Hex.IsNumeral ['a', 'b'] 0xab ∧
    (∃ p : Padding, centredField.Pads 5 p ∧
      (Spec.render { centredField with form := .number .upperHex } ⟨0xab⟩).toList =
        p.around ['+', '0', 'x'] ['A', 'B']) ∧
    ∃ t, Template.ofText? "\x7b:*^+#12x\x7d" = some t ∧ t.render ⟨0xab⟩ = "***+0xab****" := by
  have numeral : Hex.IsNumeral ['a', 'b'] 0xab := Hex.isNumeral_iff.mpr (by decide +kernel)
  have text : centredField.placeholder ['x'] = "\x7b:*^+#12x\x7d" := by decide +kernel
  obtain ⟨-, -, padded, -, -, -, asked⟩ := flags_pad_hexadecimal centredField ⟨0xab⟩
  refine ⟨numeral, ?_, ?_⟩
  · obtain ⟨p, pads, -, upper⟩ := padded ['+', '0', 'x'] ['a', 'b'] rfl numeral
    exact ⟨p, pads, upper⟩
  · obtain ⟨t, read, shown⟩ := asked ['x'] (.number .lowerHex) rfl (by decide) (by decide)
    rw [text] at read
    refine ⟨t, read, ?_⟩
    rw [shown]
    decide +kernel

end ProtocolIdent.Format
