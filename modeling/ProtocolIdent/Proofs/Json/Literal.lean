import ProtocolIdent.Json.Basic
import ProtocolIdent.Json.Token
import ProtocolIdent.Proofs.Hex
import ProtocolIdent.Proofs.Text.Utf8.Character

/-!
# String literals

The grammar of string literals is stated apart from the reader. A character stands for itself or
is spelled by an escape: by a letter, by the unit of 16 bits that is its number, or beyond the
basic plane by a pair of units; a literal is spelled character by character. The reader takes what
stands before a closing quote exactly if it is spelled so, and whatever is left of the text makes
no difference (`readString_eq_ok_iff`).
-/
namespace ProtocolIdent.Json

/-- The letters that may follow a backslash, each with the character that it stands for. -/
def shortEscapes : List (Char × Char) :=
  [('"', '"'), ('\\', '\\'), ('/', '/'), ('b', '\x08'), ('f', '\x0c'), ('n', '\n'), ('r', '\r'),
    ('t', '\t')]

/-- Four hexadecimal digits, their letters of either case. -/
def SpellsUnit (unit : Nat) (digits : List Char) : Prop :=
  unit < 0x10000 ∧ digits.map Char.toLower = (Digits.fixed 16 4 unit).map Nat.digitChar

instance (unit : Nat) (digits : List Char) : Decidable (SpellsUnit unit digits) :=
  inferInstanceAs (Decidable (_ ∧ _))

/-- The first unit of a character beyond the basic plane. -/
def highUnit (c : Char) : Nat := 0xD800 + (c.toNat - 0x10000) / 0x400

/-- The second unit of a character beyond the basic plane. -/
def lowUnit (c : Char) : Nat := 0xDC00 + (c.toNat - 0x10000) % 0x400

/-- The ways to write a character inside a string. -/
inductive SpellsChar : Char → List Char → Prop
  | itself {c : Char} (noQuote : c ≠ '"') (noBackslash : c ≠ '\\') (printed : 0x20 ≤ c.toNat) :
      SpellsChar c [c]
  | short {c letter : Char} (listed : (letter, c) ∈ shortEscapes) : SpellsChar c ['\\', letter]
  | unit {c : Char} {digits : List Char} (spelled : SpellsUnit c.toNat digits) :
      SpellsChar c ('\\' :: 'u' :: digits)
  | pair {c : Char} {high low : List Char} (beyond : 0x10000 ≤ c.toNat)
      (first : SpellsUnit (highUnit c) high) (second : SpellsUnit (lowUnit c) low) :
      SpellsChar c ('\\' :: 'u' :: (high ++ '\\' :: 'u' :: low))

/-- The ways to write characters between the quotes of a string. -/
inductive Spells : List Char → List Char → Prop
  | nil : Spells [] []
  | cons {c : Char} {s front back : List Char} (first : SpellsChar c front)
      (later : Spells s back) : Spells (c :: s) (front ++ back)

/-! ## Escapes -/

theorem unescape?_eq_some_iff {letter c : Char} :
    unescape? letter = some c ↔ (letter, c) ∈ shortEscapes := by
  constructor
  · intro found
    unfold unescape? at found
    split at found <;> cases found <;> decide
  · intro listed
    have all : ∀ entry ∈ shortEscapes, unescape? entry.1 = some entry.2 := by decide
    exact all (letter, c) listed

theorem SpellsUnit.four_digits {unit : Nat} {digits : List Char}
    (spelled : SpellsUnit unit digits) : ∃ a b c d, digits = [a, b, c, d] := by
  have four : digits.length = 4 := by simpa using congrArg List.length spelled.2
  match digits, four with
  | [a, b, c, d], _ => exact ⟨a, b, c, d, rfl⟩

/-- Four characters have at least four bytes. -/
theorem four_le_utf8ByteSize (a b c d : Char) : 4 ≤ (String.ofList [a, b, c, d]).utf8ByteSize := by
  have := a.utf8Size_pos
  have := b.utf8Size_pos
  have := c.utf8Size_pos
  have := d.utf8Size_pos
  simp
  omega

/-- The text after a unit makes no difference. -/
theorem SpellsUnit.read {unit : Nat} {digits : List Char} (spelled : SpellsUnit unit digits)
    (rest : List Char) : readUnit (digits ++ rest) = .ok (unit, rest) := by
  obtain ⟨a, b, c, d, rfl⟩ := spelled.four_digits
  have values : [a, b, c, d].mapM Hex.value? = some (Digits.fixed 16 4 unit) :=
    Hex.mapM_value?_eq_some_iff.mpr ⟨fun d => Digits.mem_fixed_lt (by decide), spelled.2⟩
  have bound : unit < 16 ^ 4 := spelled.1
  have whole : Digits.value 16 (Digits.fixed 16 4 unit) = unit := by
    rw [Digits.value_fixed, Nat.mod_eq_of_lt bound]
  have enough := four_le_utf8ByteSize a b c d
  simp only [readUnit, List.cons_append, List.nil_append, List.take_succ_cons, List.take_zero,
    values, whole]
  rw [if_neg (by omega)]

theorem readUnit_eq_ok_iff {cs rest : List Char} {unit : Nat} :
    readUnit cs = .ok (unit, rest) ↔ ∃ digits, SpellsUnit unit digits ∧ cs = digits ++ rest := by
  constructor
  · intro read
    unfold readUnit at read
    split at read
    · cases read
    · split at read
      · rename_i a b c d left enough
        split at read
        · rename_i ds values
          cases read
          obtain ⟨small, written⟩ := Hex.mapM_value?_eq_some_iff.mp values
          have four : ds.length = 4 := by simpa using (congrArg List.length written).symm
          have bound := Digits.value_lt small
          rw [four] at bound
          refine ⟨[a, b, c, d], ⟨bound, ?_⟩, rfl⟩
          rw [written, ← four, Digits.fixed_value small]
        · cases read
      · cases read
  · rintro ⟨digits, spelled, rfl⟩
    exact spelled.read rest

theorem readSecondUnit_eq_ok_iff {first : Nat} {cs rest : List Char} {c : Char} :
    readSecondUnit first cs = .ok (c, rest) ↔
      ∃ unit digits, SpellsUnit unit digits ∧ (0xDC00 ≤ unit ∧ unit ≤ 0xDFFF) ∧
        c = Char.ofNat (0x10000 + (first - 0xD800) * 0x400 + (unit - 0xDC00)) ∧
        cs = '\\' :: 'u' :: (digits ++ rest) := by
  constructor
  · intro read
    unfold readSecondUnit at read
    split at read
    · cases read
    · cases read
    · split at read
      · rename_i unit left found
        split at read
        · rename_i second
          obtain ⟨character, rfl⟩ := Prod.mk.inj (Except.ok.inj read)
          obtain ⟨digits, spelled, rfl⟩ := readUnit_eq_ok_iff.mp found
          exact ⟨unit, digits, spelled, second, character.symm, rfl⟩
        · cases read
      · cases read
    · cases read
  · rintro ⟨unit, digits, spelled, second, character, rfl⟩
    simp only [readSecondUnit, spelled.read rest, if_pos second, character]

/-- A pair of units and a character beyond the basic plane determine each other. -/
theorem pair_iff {c : Char} {first unit : Nat} (high : 0xD800 ≤ first ∧ first ≤ 0xDBFF)
    (low : 0xDC00 ≤ unit ∧ unit ≤ 0xDFFF) :
    c = Char.ofNat (0x10000 + (first - 0xD800) * 0x400 + (unit - 0xDC00)) ↔
      0x10000 ≤ c.toNat ∧ first = highUnit c ∧ unit = lowUnit c := by
  have valid : (0x10000 + (first - 0xD800) * 0x400 + (unit - 0xDC00)).isValidChar :=
    Or.inr ⟨by omega, by omega⟩
  rw [← Char.toNat_inj, Utf8.toNat_ofNat valid, highUnit, lowUnit]
  omega

/-- A unit that is of neither half of a pair is the number of a character. -/
theorem unit_iff {c : Char} {unit : Nat} (small : unit < 0x10000)
    (noHigh : ¬ (0xD800 ≤ unit ∧ unit ≤ 0xDBFF)) (noLow : ¬ (0xDC00 ≤ unit ∧ unit ≤ 0xDFFF)) :
    c = Char.ofNat unit ↔ c.toNat = unit := by
  have valid : unit.isValidChar := by
    unfold Nat.isValidChar
    omega
  rw [← Char.toNat_inj, Utf8.toNat_ofNat valid]

theorem toNat_bounds (c : Char) : (c.toNat < 0xD800 ∨ 0xDFFF < c.toNat) ∧ c.toNat < 0x110000 := by
  have valid : c.toNat.isValidChar := c.valid
  unfold Nat.isValidChar at valid
  omega

theorem highUnit_bounds (c : Char) : 0xD800 ≤ highUnit c ∧ highUnit c ≤ 0xDBFF := by
  have last := (toNat_bounds c).2
  unfold highUnit
  omega

theorem lowUnit_bounds (c : Char) : 0xDC00 ≤ lowUnit c ∧ lowUnit c ≤ 0xDFFF := by
  unfold lowUnit
  omega

theorem SpellsChar.read {c : Char} {front : List Char} (spelled : SpellsChar c ('\\' :: front))
    (rest : List Char) : readEscape (front ++ rest) = .ok (c, rest) := by
  cases spelled with
  | itself noQuote noBackslash printed => exact absurd rfl noBackslash
  | short listed =>
    rename_i letter
    have known := unescape?_eq_some_iff.mpr listed
    have noUnit : letter ≠ 'u' := by
      rintro rfl
      cases known
    rw [List.cons_append, List.nil_append, readEscape, known]
    exact noUnit
  | unit spelled =>
    -- the number of a character is of neither half of a pair
    have noSurrogate := (toNat_bounds c).1
    have noHigh : ¬ (0xD800 ≤ c.toNat ∧ c.toNat ≤ 0xDBFF) := by omega
    have noLow : ¬ (0xDC00 ≤ c.toNat ∧ c.toNat ≤ 0xDFFF) := by omega
    simp only [readEscape, List.cons_append, spelled.read rest, if_neg noHigh, if_neg noLow,
      Char.ofNat_toNat]
  | pair beyond first second =>
    rename_i high low
    have isHigh := highUnit_bounds c
    have noLow : ¬ (0xDC00 ≤ highUnit c ∧ highUnit c ≤ 0xDFFF) := by omega
    have isLow := lowUnit_bounds c
    have character := (pair_iff isHigh isLow).mpr ⟨beyond, rfl, rfl⟩
    have completed := readSecondUnit_eq_ok_iff.mpr
      ⟨_, low, second, isLow, character, (rfl : _ = '\\' :: 'u' :: (low ++ rest))⟩
    simp only [readEscape, List.cons_append, List.append_assoc, first.read, if_neg noLow,
      if_pos isHigh, completed]

theorem readEscape_eq_ok_iff {cs rest : List Char} {c : Char} :
    readEscape cs = .ok (c, rest) ↔
      ∃ front, SpellsChar c ('\\' :: front) ∧ cs = front ++ rest := by
  constructor
  · intro read
    unfold readEscape at read
    split at read
    · cases read
    · split at read
      · rename_i unit left found
        obtain ⟨digits, spelled, rfl⟩ := readUnit_eq_ok_iff.mp found
        split_ifs at read with isLow isHigh
        · obtain ⟨low, lowDigits, lowSpelled, lowUnit, character, rfl⟩ :=
            readSecondUnit_eq_ok_iff.mp read
          obtain ⟨beyond, first, second⟩ := (pair_iff isHigh lowUnit).mp character
          rw [first] at spelled
          rw [second] at lowSpelled
          exact ⟨_, .pair beyond spelled lowSpelled, by simp⟩
        · obtain ⟨character, rfl⟩ := Prod.mk.inj (Except.ok.inj read)
          rw [← (unit_iff spelled.1 isHigh isLow).mp character.symm] at spelled
          exact ⟨_, .unit spelled, rfl⟩
      · cases read
    · split at read
      · rename_i known
        cases read
        exact ⟨_, .short (unescape?_eq_some_iff.mp known), rfl⟩
      · cases read
  · rintro ⟨front, spelled, rfl⟩
    exact spelled.read rest

/-! ## Strings -/

theorem readString_quote (done rest : List Char) :
    readString done ('"' :: rest) = .ok (String.ofList done.reverse, rest) := by
  rw [readString]

theorem readString_escape {done rest after : List Char} {c : Char}
    (read : readEscape rest = .ok (c, after)) :
    readString done ('\\' :: rest) = readString (c :: done) after := by
  rw [readString]
  split
  · rename_i found
    rw [found] at read
    cases read
    rfl
  · rename_i failed
    rw [failed] at read
    cases read

theorem readString_itself {done rest : List Char} {c : Char} (noQuote : c ≠ '"')
    (noBackslash : c ≠ '\\') (printed : 0x20 ≤ c.toNat) :
    readString done (c :: rest) = readString (c :: done) rest := by
  rw [readString]
  · rw [if_neg (by omega)]
  · exact noQuote
  · exact noBackslash

/-- A character is read off the text however it is spelled. -/
theorem SpellsChar.step {c : Char} {front : List Char} (spelled : SpellsChar c front)
    (done rest : List Char) :
    readString done (front ++ rest) = readString (c :: done) rest := by
  have escaped {digits : List Char} (spelled : SpellsChar c ('\\' :: digits)) :
      readString done ('\\' :: digits ++ rest) = readString (c :: done) rest :=
    readString_escape (spelled.read rest)
  cases spelled with
  | itself noQuote noBackslash printed => exact readString_itself noQuote noBackslash printed
  | short listed => exact escaped (.short listed)
  | unit spelled => exact escaped (.unit spelled)
  | pair beyond first second => exact escaped (.pair beyond first second)

/-- A spelled string is read up to its closing quote. -/
theorem Spells.read {s body : List Char} (spelled : Spells s body) (done rest : List Char) :
    readString done (body ++ '"' :: rest) = .ok (String.ofList (done.reverse ++ s), rest) := by
  induction spelled generalizing done with
  | nil => rw [List.nil_append, readString_quote, List.append_nil]
  | cons first later ih =>
    rw [List.append_assoc, first.step, ih, List.reverse_cons, List.append_assoc]
    rfl

/-- What is read was spelled. -/
theorem spells_of_readString {done cs rest : List Char} {s : String}
    (read : readString done cs = .ok (s, rest)) :
    ∃ t body, Spells t body ∧ s = String.ofList (done.reverse ++ t) ∧
      cs = body ++ '"' :: rest := by
  induction done, cs using readString.induct with
  | case1 done =>
    rw [readString] at read
    cases read
  | case2 done left =>
    rw [readString_quote] at read
    cases read
    exact ⟨[], [], .nil, by rw [List.append_nil], rfl⟩
  | case3 done left c after found ih =>
    rw [readString_escape found] at read
    obtain ⟨t, body, spelled, rfl, rfl⟩ := ih read
    obtain ⟨front, first, rfl⟩ := readEscape_eq_ok_iff.mp found
    exact ⟨c :: t, _, .cons first spelled, by simp, by simp⟩
  | case4 done left e failed =>
    rw [readString] at read
    split at read
    · rename_i found
      rw [failed] at found
      cases found
    · cases read
  | case5 done c left noQuote noBackslash control =>
    rw [readString, if_pos control] at read
    · cases read
    · exact noQuote
    · exact noBackslash
  | case6 done c left noQuote noBackslash printed ih =>
    rw [readString_itself noQuote noBackslash (by omega)] at read
    obtain ⟨t, body, spelled, rfl, rfl⟩ := ih read
    exact ⟨c :: t, _, .cons (.itself noQuote noBackslash (by omega)) spelled, by simp, by simp⟩

/-- A string is read exactly if what stands before a quote spells it. -/
theorem readString_eq_ok_iff {cs rest : List Char} {s : String} :
    readString [] cs = .ok (s, rest) ↔
      ∃ body, Spells s.toList body ∧ cs = body ++ '"' :: rest := by
  constructor
  · intro read
    obtain ⟨t, body, spelled, rfl, rfl⟩ := spells_of_readString read
    exact ⟨body, by simpa using spelled, rfl⟩
  · rintro ⟨body, spelled, rfl⟩
    rw [spelled.read, List.reverse_nil, List.nil_append, String.ofList_toList]

/-! ## Strings as they are written -/

theorem escapeLetter?_listed {c letter : Char} (has : escapeLetter? c = some letter) :
    (letter, c) ∈ shortEscapes := by
  unfold escapeLetter? at has
  split at has <;> cases has <;> decide

theorem spellsUnit_fixed {unit : Nat} (small : unit < 0x10000) :
    SpellsUnit unit ((Digits.fixed 16 4 unit).map Nat.digitChar) := by
  refine ⟨small, ?_⟩
  rw [List.map_map]
  exact List.map_congr_left fun d member =>
    Hex.toLower_digitChar (Digits.mem_fixed_lt (by decide) member)

theorem spellsChar_escape (c : Char) : SpellsChar c (escape c) := by
  unfold escape
  split
  · rename_i letter has
    exact .short (escapeLetter?_listed has)
  · rename_i none
    split
    · exact .unit (spellsUnit_fixed (by omega))
    · rename_i printed
      refine .itself ?_ ?_ (by omega)
      · rintro rfl
        cases none
      · rintro rfl
        cases none

theorem spells_flatMap_escape (s : List Char) : Spells s (s.flatMap escape) := by
  induction s with
  | nil => exact .nil
  | cons c s ih => exact .cons (spellsChar_escape c) ih

theorem escape_itself {c : Char} (noQuote : c ≠ '"') (noBackslash : c ≠ '\\')
    (printed : 0x20 ≤ c.toNat) : escape c = [c] := by
  have none : escapeLetter? c = none := by
    unfold escapeLetter?
    split
    · exact absurd rfl noQuote
    · exact absurd rfl noBackslash
    case h_8 => rfl
    all_goals exact absurd printed (by decide)
  rw [escape, none]
  exact if_neg (by omega)

end ProtocolIdent.Json
