import ProtocolIdent.Text.Utf8

/-!
# Characters of several bytes

A leading byte begins a character under way, and the bytes that follow complete it. Every
character of several bytes is encoded as a byte that leads to it and bytes that complete it
(`led_of_wide`), and what a leading byte begins can be completed only to the bytes of a
character (`sound_ofLead?`).
-/
namespace ProtocolIdent.Utf8

/-! ## The encoder by the number of bytes -/

theorem toNat_ofNat {n : Nat} (valid : n.isValidChar) : (Char.ofNat n).toNat = n := by
  rw [Char.ofNat, dif_pos valid]
  rfl

theorem encodeChar_one {c : Char} (high : c.toNat < 0x80) :
    String.utf8EncodeChar c = [UInt8.ofNat c.toNat] := by
  unfold String.utf8EncodeChar
  exact if_pos (by rw [Char.toNat_val]; omega)

theorem encodeChar_two {c : Char} (low : 0x80 ≤ c.toNat) (high : c.toNat ≤ 0x7FF) :
    String.utf8EncodeChar c =
      [UInt8.ofNat (c.toNat / 64 + 0xC0), UInt8.ofNat (c.toNat % 64 + 0x80)] := by
  have top : c.toNat / 64 % 32 = c.toNat / 64 := by omega
  unfold String.utf8EncodeChar
  simp only [Char.toNat_val]
  rw [if_neg (by omega), if_pos high, top]

theorem encodeChar_three {c : Char} (low : 0x800 ≤ c.toNat) (high : c.toNat ≤ 0xFFFF) :
    String.utf8EncodeChar c =
      [UInt8.ofNat (c.toNat / 4096 + 0xE0), UInt8.ofNat (c.toNat / 64 % 64 + 0x80),
        UInt8.ofNat (c.toNat % 64 + 0x80)] := by
  have top : c.toNat / 4096 % 16 = c.toNat / 4096 := by omega
  unfold String.utf8EncodeChar
  simp only [Char.toNat_val]
  rw [if_neg (by omega), if_neg (by omega), if_pos high, top]

theorem encodeChar_four {c : Char} (low : 0x10000 ≤ c.toNat) (high : c.toNat ≤ 0x10FFFF) :
    String.utf8EncodeChar c =
      [UInt8.ofNat (c.toNat / 262144 + 0xF0), UInt8.ofNat (c.toNat / 4096 % 64 + 0x80),
        UInt8.ofNat (c.toNat / 64 % 64 + 0x80), UInt8.ofNat (c.toNat % 64 + 0x80)] := by
  have top : c.toNat / 262144 % 8 = c.toNat / 262144 := by omega
  unfold String.utf8EncodeChar
  simp only [Char.toNat_val]
  rw [if_neg (by omega), if_neg (by omega), if_neg (by omega), top]

/-! ## Leading bytes by the number of bytes -/

/-- What holds of the 256 bytes one by one holds of every byte. -/
@[elab_as_elim] theorem forall_byte {motive : UInt8 → Prop}
    (all : ∀ n < 256, motive (UInt8.ofNat n)) (b : UInt8) : motive b := by
  have here := all b.toNat b.toNat_lt
  rwa [UInt8.ofNat_toNat] at here

namespace Unfinished

theorem ofLead?_two {b : UInt8} (low : 0xC2 ≤ b.toNat) (high : b.toNat ≤ 0xDF) :
    ofLead? b = some { seen := [b], bits := b.toNat - 0xC0, more := 0 } := by
  revert low high
  exact forall_byte (by decide +kernel) b

theorem ofLead?_three {b : UInt8} (low : 0xE0 ≤ b.toNat) (high : b.toNat ≤ 0xEF) :
    ofLead? b = some
      { seen := [b], bits := b.toNat - 0xE0, low := if b.toNat = 0xE0 then 0xA0 else 0x80,
        high := if b.toNat = 0xED then 0x9F else 0xBF, more := 1 } := by
  revert low high
  exact forall_byte (by decide +kernel) b

theorem ofLead?_four {b : UInt8} (low : 0xF0 ≤ b.toNat) (high : b.toNat ≤ 0xF4) :
    ofLead? b = some
      { seen := [b], bits := b.toNat - 0xF0, low := if b.toNat = 0xF0 then 0x90 else 0x80,
        high := if b.toNat = 0xF4 then 0x8F else 0xBF, more := 2 } := by
  revert low high
  exact forall_byte (by decide +kernel) b

/-- No other byte begins a character of several bytes. -/
theorem lead_range {b : UInt8} {u : Unfinished} (lead : ofLead? b = some u) :
    (0xC2 ≤ b.toNat ∧ b.toNat ≤ 0xDF) ∨ (0xE0 ≤ b.toNat ∧ b.toNat ≤ 0xEF) ∨
      (0xF0 ≤ b.toNat ∧ b.toNat ≤ 0xF4) := by
  have leads : ofLead? b ≠ none := by simp [lead]
  revert leads
  exact forall_byte (by decide +kernel) b

/-! ## Going on with a character -/

/-- The character under way after one more byte, when `n` bytes are to follow that one. -/
def advance (u : Unfinished) (b : UInt8) (n : Nat) : Unfinished :=
  { seen := u.seen ++ [b], bits := u.bits * 64 + (b.toNat - 0x80), more := n }

/-- The bytes complete the character under way, each of them in its range. -/
def Completes : Unfinished → List UInt8 → Char → Prop
  | _, [], _ => False
  | u, b :: rest, c => (u.low ≤ b ∧ b ≤ u.high) ∧
    match u.more with
    | 0 => rest = [] ∧ c = Char.ofNat (u.bits * 64 + (b.toNat - 0x80))
    | n + 1 => (u.advance b n).Completes rest c

/-- The character under way can only be completed to the encoding of a character. -/
def Sound (u : Unfinished) : Prop :=
  ∀ (rest : List UInt8) (c : Char), u.Completes rest c → String.utf8EncodeChar c = u.seen ++ rest

theorem sound_advance {u : Unfinished} {b : UInt8} {n : Nat} (sound : u.Sound)
    (range : u.low ≤ b ∧ b ≤ u.high) (more : u.more = n + 1) : (u.advance b n).Sound := by
  intro rest c completed
  have whole : u.Completes (b :: rest) c := by
    simp only [Completes, more]
    exact ⟨range, completed⟩
  rw [sound _ _ whole, advance, List.append_assoc, List.singleton_append]

theorem encodeChar_last {u : Unfinished} {b : UInt8} (sound : u.Sound)
    (range : u.low ≤ b ∧ b ≤ u.high) (last : u.more = 0) :
    String.utf8EncodeChar (Char.ofNat (u.bits * 64 + (b.toNat - 0x80))) = u.seen ++ [b] := by
  apply sound
  simp only [Completes, last, and_self, and_true]
  exact range

theorem completes_zero_iff {u : Unfinished} {bytes : List UInt8} {c : Char} (last : u.more = 0) :
    u.Completes bytes c ↔ ∃ b, bytes = [b] ∧ u.low.toNat ≤ b.toNat ∧ b.toNat ≤ u.high.toNat ∧
      c = Char.ofNat (u.bits * 64 + (b.toNat - 0x80)) := by
  cases bytes with
  | nil => simp [Completes]
  | cons b rest =>
    simp only [Completes, last]
    constructor
    · intro completed
      obtain ⟨⟨low, high⟩, rfl, value⟩ := completed
      exact ⟨b, rfl, low, high, value⟩
    · intro completed
      obtain ⟨b', same, low, high, value⟩ := completed
      cases same
      exact ⟨⟨low, high⟩, rfl, value⟩

theorem completes_succ_iff {u : Unfinished} {bytes : List UInt8} {c : Char} {n : Nat}
    (more : u.more = n + 1) :
    u.Completes bytes c ↔ ∃ b rest, bytes = b :: rest ∧ u.low.toNat ≤ b.toNat ∧
      b.toNat ≤ u.high.toNat ∧ (u.advance b n).Completes rest c := by
  cases bytes with
  | nil => simp [Completes]
  | cons b rest =>
    simp only [Completes, more]
    constructor
    · intro completed
      obtain ⟨⟨low, high⟩, later⟩ := completed
      exact ⟨b, rest, rfl, low, high, later⟩
    · intro completed
      obtain ⟨b', rest', same, low, high, later⟩ := completed
      cases same
      exact ⟨⟨low, high⟩, later⟩

theorem completes_last {u : Unfinished} {b : UInt8} {c : Char} (last : u.more = 0)
    (low : u.low.toNat ≤ b.toNat) (high : b.toNat ≤ u.high.toNat)
    (value : u.bits * 64 + (b.toNat - 0x80) = c.toNat) : u.Completes [b] c :=
  (completes_zero_iff last).mpr ⟨b, rfl, low, high, by rw [value, Char.ofNat_toNat]⟩

theorem completes_cons {u : Unfinished} {b : UInt8} {rest : List UInt8} {c : Char} {n : Nat}
    (more : u.more = n + 1) (low : u.low.toNat ≤ b.toNat) (high : b.toNat ≤ u.high.toNat)
    (later : (u.advance b n).Completes rest c) : u.Completes (b :: rest) c :=
  (completes_succ_iff more).mpr ⟨b, rest, rfl, low, high, later⟩

end Unfinished

/-! ## The encoding of a character -/

theorem toNat_byte {n : Nat} (small : n < 256) : (UInt8.ofNat n).toNat = n :=
  UInt8.toNat_ofNat_of_lt' small

theorem toNat_tail (n : Nat) : (UInt8.ofNat (n % 64 + 0x80)).toNat = n % 64 + 0x80 :=
  toNat_byte (by omega)

/-- A character that takes several bytes is encoded without a byte that is a character alone. -/
theorem le_of_mem_encodeChar {c : Char} (wide : 0x80 ≤ c.toNat) {b : UInt8}
    (member : b ∈ String.utf8EncodeChar c) : 0x80 ≤ b.toNat := by
  have valid : c.toNat < 0xD800 ∨ (0xDFFF < c.toNat ∧ c.toNat < 0x110000) := c.valid
  have second := toNat_tail (c.toNat / 4096)
  have third := toNat_tail (c.toNat / 64)
  have last := toNat_tail c.toNat
  by_cases two : c.toNat ≤ 0x7FF
  · have lead := toNat_byte (by omega : c.toNat / 64 + 0xC0 < 256)
    simp only [encodeChar_two wide two, List.mem_cons, List.not_mem_nil, or_false] at member
    rcases member with rfl | rfl <;> omega
  · by_cases three : c.toNat ≤ 0xFFFF
    · have lead := toNat_byte (by omega : c.toNat / 4096 + 0xE0 < 256)
      simp only [encodeChar_three (by omega) three, List.mem_cons, List.not_mem_nil,
        or_false] at member
      rcases member with rfl | rfl | rfl <;> omega
    · have lead := toNat_byte (by omega : c.toNat / 262144 + 0xF0 < 256)
      have bytes := encodeChar_four (by omega : 0x10000 ≤ c.toNat) (by omega)
      simp only [bytes, List.mem_cons, List.not_mem_nil, or_false] at member
      rcases member with rfl | rfl | rfl | rfl <;> omega

/-- The encoding of the character begins with a byte that leads to it. -/
def Led (c : Char) : Prop :=
  ∃ (b : UInt8) (u : Unfinished) (rest : List UInt8), String.utf8EncodeChar c = b :: rest ∧
    Unfinished.ofLead? b = some u ∧ u.Completes rest c

theorem led_two {c : Char} (low : 0x80 ≤ c.toNat) (high : c.toNat ≤ 0x7FF) : Led c := by
  have lead := toNat_byte (by omega : c.toNat / 64 + 0xC0 < 256)
  have last := toNat_tail c.toNat
  refine ⟨_, _, _, encodeChar_two low high, Unfinished.ofLead?_two (by omega) (by omega), ?_⟩
  apply Unfinished.completes_last rfl
  all_goals
    simp only [lead, last, UInt8.reduceToNat]
    omega

theorem led_three {c : Char} (low : 0x800 ≤ c.toNat) (high : c.toNat ≤ 0xFFFF) : Led c := by
  have valid : c.toNat < 0xD800 ∨ (0xDFFF < c.toNat ∧ c.toNat < 0x110000) := c.valid
  have lead := toNat_byte (by omega : c.toNat / 4096 + 0xE0 < 256)
  have second := toNat_tail (c.toNat / 64)
  have last := toNat_tail c.toNat
  refine ⟨_, _, _, encodeChar_three low high, Unfinished.ofLead?_three (by omega) (by omega), ?_⟩
  refine Unfinished.completes_cons rfl ?_ ?_ (Unfinished.completes_last rfl ?_ ?_ ?_)
  · simp only [lead, second]
    split <;> simp only [UInt8.reduceToNat] <;> omega
  · simp only [lead, second]
    split <;> simp only [UInt8.reduceToNat] <;> omega
  all_goals
    simp only [Unfinished.advance, lead, second, last, UInt8.reduceToNat]
    omega

theorem led_four {c : Char} (low : 0x10000 ≤ c.toNat) (high : c.toNat ≤ 0x10FFFF) : Led c := by
  have lead := toNat_byte (by omega : c.toNat / 262144 + 0xF0 < 256)
  have second := toNat_tail (c.toNat / 4096)
  have third := toNat_tail (c.toNat / 64)
  have last := toNat_tail c.toNat
  refine ⟨_, _, _, encodeChar_four low high, Unfinished.ofLead?_four (by omega) (by omega), ?_⟩
  refine Unfinished.completes_cons rfl ?_ ?_
    (Unfinished.completes_cons rfl ?_ ?_ (Unfinished.completes_last rfl ?_ ?_ ?_))
  · simp only [lead, second]
    split <;> simp only [UInt8.reduceToNat] <;> omega
  · simp only [lead, second]
    split <;> simp only [UInt8.reduceToNat] <;> omega
  all_goals
    simp only [Unfinished.advance, lead, second, third, last, UInt8.reduceToNat]
    omega

theorem led_of_wide {c : Char} (wide : 0x80 ≤ c.toNat) : Led c := by
  have valid : c.toNat < 0xD800 ∨ (0xDFFF < c.toNat ∧ c.toNat < 0x110000) := c.valid
  by_cases two : c.toNat ≤ 0x7FF
  · exact led_two wide two
  · by_cases three : c.toNat ≤ 0xFFFF
    · exact led_three (by omega) three
    · exact led_four (by omega) (by omega)

/-! ## What a leading byte begins -/

namespace Unfinished

theorem seen_ofLead? {b : UInt8} {u : Unfinished} (lead : ofLead? b = some u) : u.seen = [b] := by
  rcases lead_range lead with ⟨low, high⟩ | ⟨low, high⟩ | ⟨low, high⟩
  · rw [ofLead?_two low high] at lead
    cases lead
    rfl
  · rw [ofLead?_three low high] at lead
    cases lead
    rfl
  · rw [ofLead?_four low high] at lead
    cases lead
    rfl

theorem sound_two {b : UInt8} {u : Unfinished} (low : 0xC2 ≤ b.toNat) (high : b.toNat ≤ 0xDF)
    (lead : ofLead? b = some u) : u.Sound := by
  intro rest c completed
  rw [ofLead?_two low high] at lead
  cases lead
  obtain ⟨x, rfl, lowX, highX, value⟩ := (completes_zero_iff rfl).mp completed
  simp only [UInt8.reduceToNat] at lowX highX value
  have number : c.toNat = (b.toNat - 0xC0) * 64 + (x.toNat - 0x80) := by
    rw [value, toNat_ofNat]
    left
    omega
  have first : c.toNat / 64 + 0xC0 = b.toNat := by omega
  have second : c.toNat % 64 + 0x80 = x.toNat := by omega
  rw [encodeChar_two (by omega) (by omega), first, second, UInt8.ofNat_toNat, UInt8.ofNat_toNat]
  rfl

theorem sound_three {b : UInt8} {u : Unfinished} (low : 0xE0 ≤ b.toNat) (high : b.toNat ≤ 0xEF)
    (lead : ofLead? b = some u) : u.Sound := by
  intro rest c completed
  rw [ofLead?_three low high] at lead
  cases lead
  obtain ⟨x, _, rfl, lowX, highX, later⟩ := (completes_succ_iff rfl).mp completed
  obtain ⟨y, rfl, lowY, highY, value⟩ := (completes_zero_iff rfl).mp later
  simp only [apply_ite UInt8.toNat, UInt8.reduceToNat] at lowX highX
  simp only [advance, UInt8.reduceToNat] at lowY highY value
  -- a second byte below A0 behind E0 would be a shorter form, one above 9F behind ED a surrogate
  have least : 0x80 ≤ x.toNat ∧ (b.toNat = 0xE0 → 0xA0 ≤ x.toNat) := by
    split at lowX <;> omega
  have most : x.toNat ≤ 0xBF ∧ (b.toNat = 0xED → x.toNat ≤ 0x9F) := by
    split at highX <;> omega
  have number : c.toNat = ((b.toNat - 0xE0) * 64 + (x.toNat - 0x80)) * 64 + (y.toNat - 0x80) := by
    rw [value, toNat_ofNat]
    unfold Nat.isValidChar
    omega
  have first : c.toNat / 4096 + 0xE0 = b.toNat := by omega
  have second : c.toNat / 64 % 64 + 0x80 = x.toNat := by omega
  have third : c.toNat % 64 + 0x80 = y.toNat := by omega
  rw [encodeChar_three (by omega) (by omega), first, second, third, UInt8.ofNat_toNat,
    UInt8.ofNat_toNat, UInt8.ofNat_toNat]
  rfl

theorem sound_four {b : UInt8} {u : Unfinished} (low : 0xF0 ≤ b.toNat) (high : b.toNat ≤ 0xF4)
    (lead : ofLead? b = some u) : u.Sound := by
  intro rest c completed
  rw [ofLead?_four low high] at lead
  cases lead
  obtain ⟨x, _, rfl, lowX, highX, later⟩ := (completes_succ_iff rfl).mp completed
  obtain ⟨y, _, rfl, lowY, highY, later'⟩ := (completes_succ_iff rfl).mp later
  obtain ⟨z, rfl, lowZ, highZ, value⟩ := (completes_zero_iff rfl).mp later'
  simp only [apply_ite UInt8.toNat, UInt8.reduceToNat] at lowX highX
  simp only [advance, UInt8.reduceToNat] at lowY highY lowZ highZ value
  -- a second byte below 90 behind F0 would be a shorter form, one above 8F behind F4 too great
  have least : 0x80 ≤ x.toNat ∧ (b.toNat = 0xF0 → 0x90 ≤ x.toNat) := by
    split at lowX <;> omega
  have most : x.toNat ≤ 0xBF ∧ (b.toNat = 0xF4 → x.toNat ≤ 0x8F) := by
    split at highX <;> omega
  have number : c.toNat = (((b.toNat - 0xF0) * 64 + (x.toNat - 0x80)) * 64 +
      (y.toNat - 0x80)) * 64 + (z.toNat - 0x80) := by
    rw [value, toNat_ofNat]
    unfold Nat.isValidChar
    omega
  have first : c.toNat / 262144 + 0xF0 = b.toNat := by omega
  have second : c.toNat / 4096 % 64 + 0x80 = x.toNat := by omega
  have third : c.toNat / 64 % 64 + 0x80 = y.toNat := by omega
  have fourth : c.toNat % 64 + 0x80 = z.toNat := by omega
  rw [encodeChar_four (by omega) (by omega), first, second, third, fourth, UInt8.ofNat_toNat,
    UInt8.ofNat_toNat, UInt8.ofNat_toNat, UInt8.ofNat_toNat]
  rfl

/-- What a leading byte begins can only be completed to the encoding of a character. -/
theorem sound_ofLead? {b : UInt8} {u : Unfinished} (lead : ofLead? b = some u) : u.Sound := by
  rcases lead_range lead with ⟨low, high⟩ | ⟨low, high⟩ | ⟨low, high⟩
  · exact sound_two low high lead
  · exact sound_three low high lead
  · exact sound_four low high lead

end Unfinished

end ProtocolIdent.Utf8
