import Mathlib.Data.List.TakeWhile
import ProtocolIdent.Json.Ident
import ProtocolIdent.Proofs.Ident.Text
import ProtocolIdent.Proofs.Json.Literal
import ProtocolIdent.Proofs.Text.Utf8.Decode

/-!
# Identifiers read from strings, bytes, values and documents

However a string comes, it is read by `Ident.ofText`: by itself, as its bytes, as a value, or as a
literal of any spelling at the beginning of a document. What stands behind the literal is looked
at only if the string is an identifier (`every_route_reads_text`).
-/
namespace ProtocolIdent.Json

/-! ## Blanks -/

/-- Space, line feed, tab or carriage return. -/
def Blank (c : Char) : Prop :=
  c ∈ [' ', '\n', '\t', '\r']

instance (c : Char) : Decidable (Blank c) :=
  inferInstanceAs (Decidable (_ ∈ _))

theorem isBlank_iff {c : Char} : isBlank c = true ↔ Blank c := by
  simp [isBlank, Blank, or_assoc]

theorem isEmpty_skipBlanks {cs : List Char} :
    (skipBlanks cs).isEmpty = true ↔ ∀ c ∈ cs, Blank c := by
  rw [List.isEmpty_iff, skipBlanks, List.dropWhile_eq_nil_iff]
  exact forall₂_congr fun c _ => isBlank_iff

theorem skipBlanks_append_cons {blanks left : List Char} {c : Char}
    (blank : ∀ b ∈ blanks, Blank b) (noBlank : ¬ Blank c) :
    skipBlanks (blanks ++ c :: left) = c :: left := by
  rw [skipBlanks, List.dropWhile_append_of_pos fun b member => isBlank_iff.mpr (blank b member),
    List.dropWhile_cons_of_neg (by rwa [isBlank_iff])]

theorem eq_append_skipBlanks (cs : List Char) :
    ∃ blanks, (∀ b ∈ blanks, Blank b) ∧ cs = blanks ++ skipBlanks cs :=
  ⟨cs.takeWhile isBlank, fun _ member => isBlank_iff.mp (List.mem_takeWhile_imp member),
    List.takeWhile_append_dropWhile.symm⟩

theorem expectEnd_of_blank {cs : List Char} (blank : ∀ c ∈ cs, Blank c) :
    expectEnd cs = .ok () :=
  if_pos (isEmpty_skipBlanks.mpr blank)

theorem expectEnd_of_not_blank {cs : List Char} (more : ¬ ∀ c ∈ cs, Blank c) :
    expectEnd cs = .error (.read .malformed) :=
  if_neg (mt isEmpty_skipBlanks.mp more)

/-! ## Documents that begin with a string -/

/-- The text begins, maybe after blanks, with a literal of the string, and then goes on. -/
def BeginsWithString (s : String) (rest : List Char) (text : String) : Prop :=
  ∃ blanks body, (∀ c ∈ blanks, Blank c) ∧ Spells s.toList body ∧
    text.toList = blanks ++ '"' :: (body ++ '"' :: rest)

theorem exists_of_map_eq_ok {ε α β : Type} {f : α → β} {x : Except ε α} {b : β}
    (mapped : x.map f = .ok b) : ∃ a, x = .ok a ∧ f a = b := by
  cases x with
  | error e => cases mapped
  | ok a => exact ⟨a, rfl, Except.ok.inj mapped⟩

theorem exists_of_bind_eq_ok {ε α β : Type} {x : Except ε α} {f : α → Except ε β} {b : β}
    (bound : x >>= f = .ok b) : ∃ a, x = .ok a ∧ f a = .ok b := by
  cases x with
  | error e => cases bound
  | ok a => exact ⟨a, rfl, bound⟩

theorem readToken_eq_string_iff {cs rest : List Char} {s : String} :
    readToken cs = .ok (.string s, rest) ↔
      ∃ body, Spells s.toList body ∧ cs = '"' :: (body ++ '"' :: rest) := by
  constructor
  · intro read
    unfold readToken at read
    split at read
    · cases read
    · obtain ⟨_, found, same⟩ := exists_of_map_eq_ok read
      cases same
      obtain ⟨body, spelled, rfl⟩ := readString_eq_ok_iff.mp found
      exact ⟨body, spelled, rfl⟩
    · cases read
    · cases read
    · obtain ⟨_, -, same⟩ := exists_of_map_eq_ok read
      cases same
    · obtain ⟨_, -, same⟩ := exists_of_map_eq_ok read
      cases same
    · obtain ⟨_, -, same⟩ := exists_of_map_eq_ok read
      cases same
    · split at read
      · obtain ⟨_, -, same⟩ := exists_of_map_eq_ok read
        cases same
      · cases read
  · rintro ⟨body, spelled, rfl⟩
    rw [readToken, readString_eq_ok_iff.mpr ⟨body, spelled, rfl⟩]
    rfl

theorem readToken_skipBlanks_iff {text : String} {rest : List Char} {s : String} :
    readToken (skipBlanks text.toList) = .ok (.string s, rest) ↔ BeginsWithString s rest text := by
  constructor
  · intro read
    obtain ⟨body, spelled, shape⟩ := readToken_eq_string_iff.mp read
    obtain ⟨blanks, blank, split⟩ := eq_append_skipBlanks text.toList
    rw [shape] at split
    exact ⟨blanks, body, blank, spelled, split⟩
  · rintro ⟨blanks, body, blank, spelled, shape⟩
    rw [shape, skipBlanks_append_cons blank (by decide)]
    exact readToken_eq_string_iff.mpr ⟨body, spelled, rfl⟩

theorem identOfText_of_error {s text : String} {rest : List Char} {e : DataError}
    (begins : BeginsWithString s rest text) (refused : identOfString s = .error e) :
    identOfText text = .error (.data e) := by
  rw [identOfText, readToken_skipBlanks_iff.mpr begins]
  simp only [refused]

theorem identOfText_of_ok {s text : String} {rest : List Char} {id : Ident}
    (begins : BeginsWithString s rest text) (accepted : identOfString s = .ok id) :
    identOfText text = (expectEnd rest).map fun _ => id := by
  rw [identOfText, readToken_skipBlanks_iff.mpr begins]
  simp only [accepted]

/-- A literal alone is read as its string. -/
theorem identOfText_of_literal {s text : String} {rest : List Char}
    (begins : BeginsWithString s rest text) (blank : ∀ c ∈ rest, Blank c) :
    identOfText text = (identOfString s).mapError .data := by
  cases outcome : identOfString s with
  | error e => exact identOfText_of_error begins outcome
  | ok id =>
    rw [identOfText_of_ok begins outcome, expectEnd_of_blank blank]
    rfl

theorem identOfString_of_ok {s : String} {id : Ident} (read : Ident.ofText s = .ok id) :
    identOfString s = .ok id := by
  rw [identOfString, read]
  rfl

theorem identOfString_of_error {s : String} (refused : ∀ id, Ident.ofText s ≠ .ok id) :
    identOfString s = .error (.ident (.malformed s)) := by
  rw [identOfString, Ident.ofText_of_ne_ok refused]
  rfl

theorem identOfString_eq_ok_iff {s : String} {id : Ident} :
    identOfString s = .ok id ↔ Ident.ofText s = .ok id := by
  unfold identOfString
  cases Ident.ofText s with
  | error e => simp [Except.mapError]
  | ok found => simp [Except.mapError]

theorem identOfValue_string (s : String) : identOfValue (.string s) = identOfString s := rfl

theorem identOfBytes_encode (s : String) : identOfBytes (Utf8.encode s) = identOfString s := by
  rw [identOfBytes, Utf8.decode?_encode]

/-- A document holds an identifier exactly if it is a literal of a text that is read as one,
between blanks. -/
theorem identOfText_eq_ok_iff {text : String} {id : Ident} :
    identOfText text = .ok id ↔
      ∃ s rest, BeginsWithString s rest text ∧ Ident.ofText s = .ok id ∧ ∀ c ∈ rest, Blank c := by
  constructor
  · intro read
    have opened := read
    unfold identOfText at opened
    split at opened
    · cases opened
    · rename_i s rest token
      have begins := readToken_skipBlanks_iff.mp token
      split at opened
      · cases opened
      · rename_i found accepted
        obtain ⟨_, ended, rfl⟩ := exists_of_map_eq_ok opened
        refine ⟨s, rest, begins, identOfString_eq_ok_iff.mp accepted, ?_⟩
        by_contra more
        rw [expectEnd_of_not_blank more] at ended
        cases ended
    · cases opened
  · rintro ⟨s, rest, begins, read, blank⟩
    rw [identOfText_of_literal begins blank, identOfString_of_ok read]
    rfl

/-! ## Values -/

theorem found_readElements {n : Nat} {done : List Json} {cs rest : List Char} {v : Json}
    (read : readElements n done cs = .ok (v, rest)) : v.found = .sequence := by
  induction n generalizing done cs with
  | zero =>
    rw [readElements] at read
    cases read
  | succ n ih =>
    rw [readElements] at read
    obtain ⟨⟨element, left⟩, -, after⟩ := exists_of_bind_eq_ok read
    dsimp only at after
    split at after
    · exact ih after
    · cases after
      rfl
    · cases after
    · cases after

theorem found_readMembers {n : Nat} {done : List (String × Json)} {cs rest : List Char} {v : Json}
    (read : readMembers n done cs = .ok (v, rest)) : v.found = .map := by
  induction n generalizing done cs with
  | zero =>
    rw [readMembers] at read
    cases read
  | succ n ih =>
    rw [readMembers] at read
    split at read
    · obtain ⟨⟨key, left⟩, -, colon⟩ := exists_of_bind_eq_ok read
      dsimp only at colon
      split at colon
      · obtain ⟨⟨member, left⟩, -, after⟩ := exists_of_bind_eq_ok colon
        dsimp only at after
        split at after
        · exact ih after
        · cases after
          rfl
        · cases after
        · cases after
      · cases colon
      · cases colon
    · cases read
    · cases read

/-- A value is what its first token shows, and of a string that token is all. -/
theorem readValue_opening {n : Nat} {cs rest : List Char} {v : Json}
    (read : readValue n cs = .ok (v, rest)) :
    ∃ token left, readToken (skipBlanks cs) = .ok (token, left) ∧ v.found = token.found ∧
      ∀ s, token = .string s → left = rest := by
  cases n with
  | zero =>
    rw [readValue] at read
    cases read
  | succ n =>
    rw [readValue] at read
    obtain ⟨⟨token, left⟩, opening, after⟩ := exists_of_bind_eq_ok read
    refine ⟨token, left, opening, ?_⟩
    cases token with
    | null =>
      cases after
      exact ⟨rfl, fun s other => nomatch other⟩
    | bool b =>
      cases after
      exact ⟨rfl, fun s other => nomatch other⟩
    | number x =>
      cases after
      exact ⟨rfl, fun s other => nomatch other⟩
    | string s =>
      cases after
      exact ⟨rfl, fun s same => rfl⟩
    | openArray =>
      refine ⟨?_, fun s other => nomatch other⟩
      dsimp only at after
      split at after
      · cases after
        rfl
      · exact found_readElements after
    | openObject =>
      refine ⟨?_, fun s other => nomatch other⟩
      dsimp only at after
      split at after
      · cases after
        rfl
      · exact found_readMembers after

/-- Only a string shows a string. -/
theorem found_eq_string_iff {v : Json} {s : String} : v.found = .string s ↔ v = .string s := by
  cases v <;> simp [found]

theorem Token.found_eq_string_iff {token : Token} {s : String} :
    token.found = .string s ↔ token = .string s := by
  cases token <;> simp [Token.found]

theorem identOfValue_of_not_string {v : Json} (other : ∀ s, v ≠ .string s) :
    identOfValue v = .error (.wrongType v.found .string) := by
  cases v with
  | string s => exact absurd rfl (other s)
  | null => rfl
  | bool b => rfl
  | number x => rfl
  | array elements => rfl
  | object members => rfl

theorem identOfText_of_not_string {text : String} {token : Token} {left : List Char}
    (opening : readToken (skipBlanks text.toList) = .ok (token, left))
    (other : ∀ s, token ≠ .string s) :
    identOfText text = .error (.data (.wrongType token.found .string)) := by
  rw [identOfText, opening]
  cases token with
  | string s => exact absurd rfl (other s)
  | null => rfl
  | bool b => rfl
  | number x => rfl
  | openArray => rfl
  | openObject => rfl

/-- A document holds the identifier that its value holds. -/
theorem identOfText_of_document {text : String} {v : Json} (read : ofText text = .ok v) :
    identOfText text = (identOfValue v).mapError .data := by
  obtain ⟨⟨w, rest⟩, value, ended⟩ := exists_of_bind_eq_ok read
  dsimp only at ended
  split at ended
  · rename_i blank
    cases ended
    obtain ⟨token, left, opening, shows, whole⟩ := readValue_opening value
    by_cases isString : ∃ s, v = .string s
    · obtain ⟨s, rfl⟩ := isString
      obtain rfl := Token.found_eq_string_iff.mp shows.symm
      obtain rfl := whole s rfl
      exact identOfText_of_literal (readToken_skipBlanks_iff.mp opening)
        (isEmpty_skipBlanks.mp blank)
    · have noString : ∀ s, v ≠ .string s := not_exists.mp isString
      have noToken : ∀ s, token ≠ .string s := by
        rintro s rfl
        exact noString s (found_eq_string_iff.mp shows)
      rw [identOfText_of_not_string opening noToken, identOfValue_of_not_string noString, shows]
      rfl
  · cases ended

/-! ## Identifiers as they are written -/

theorem compact_string (s : String) :
    (Json.string s).compact = String.ofList ('"' :: s.toList.flatMap escape ++ ['"']) := by
  rw [compact, quote]

/-- A string is written as a literal of it. -/
theorem begins_compact (s : String) : BeginsWithString s [] (Json.string s).compact := by
  refine ⟨[], s.toList.flatMap escape, by simp, spells_flatMap_escape s.toList, ?_⟩
  simp [compact_string]

theorem escape_of_isLower {c : Char} (lower : Hex.IsLower c) : escape c = [c] := by
  refine escape_itself ?_ ?_ ?_
  · rintro rfl
    exact absurd lower (by decide)
  · rintro rfl
    exact absurd lower (by decide)
  · simp only [Hex.IsLower, Char.le_def, UInt32.le_iff_toNat_le, Char.toNat_val,
      Char.reduceToNat] at lower
    omega

/-- No character of the text of an identifier is escaped. -/
theorem flatMap_escape_text (id : Ident) : id.text.toList.flatMap escape = id.text.toList := by
  have plain : ∀ c ∈ id.text.toList, escape c = [c] := by
    rw [Ident.toList_text]
    simp only [List.mem_cons, forall_eq_or_imp]
    exact ⟨rfl, rfl, fun c member => escape_of_isLower (Ident.isLower_of_mem_digits member)⟩
  rw [List.flatMap_def, List.map_congr_left plain, ← List.flatMap_def, List.flatMap_singleton']

theorem compact_ofIdent (id : Ident) : (ofIdent id).compact = "\"" ++ id.text ++ "\"" := by
  apply String.toList_inj.mp
  rw [ofIdent, compact_string, flatMap_escape_text]
  simp

/-- However a string comes, it is read as the identifier that its text is read as, and otherwise
refused with the error that names it; behind a literal, a refusal comes before any look at what
follows, and an identifier is given only if nothing but blanks follows. No document but such a
literal holds an identifier, nor does any other value, nor bytes that are not UTF-8. What an
identifier is written as is read back by every route. -/
theorem every_route_reads_text :
    (∀ (s : String) (id : Ident),
      (identOfString s = .ok id ↔ Ident.ofText s = .ok id) ∧
      (identOfBytes s.toUTF8.data.toList = .ok id ↔ Ident.ofText s = .ok id) ∧
      (identOfValue (.string s) = .ok id ↔ Ident.ofText s = .ok id) ∧
      (∀ text rest, BeginsWithString s rest text → (∀ c ∈ rest, Blank c) →
        (identOfText text = .ok id ↔ Ident.ofText s = .ok id))) ∧
    (∀ s : String, (∀ id, Ident.ofText s ≠ .ok id) →
      (DataError.ident (.malformed s)).message =
        "invalid protocol identifier: " ++ Text.quote s ∧
      identOfString s = .error (.ident (.malformed s)) ∧
      identOfBytes s.toUTF8.data.toList = .error (.ident (.malformed s)) ∧
      identOfValue (.string s) = .error (.ident (.malformed s)) ∧
      (∀ text rest, BeginsWithString s rest text →
        identOfText text = .error (.data (.ident (.malformed s))))) ∧
    (∀ (s : String) (id : Ident), Ident.ofText s = .ok id →
      ∀ text rest, BeginsWithString s rest text →
        (identOfText text = .ok id ↔ ∀ c ∈ rest, Blank c) ∧
        ((∃ c ∈ rest, ¬ Blank c) → identOfText text = .error (.read .malformed))) ∧
    (∀ (text : String) (id : Ident), identOfText text = .ok id →
      ∃ s rest, BeginsWithString s rest text ∧ ∀ c ∈ rest, Blank c) ∧
    (∀ v : Json, (∀ s, v ≠ .string s) →
      identOfValue v = .error (.wrongType v.found .string) ∧
      ∀ text, ofText text = .ok v →
        identOfText text = .error (.data (.wrongType v.found .string))) ∧
    (∀ bytes : List UInt8, ¬ bytes.toByteArray.IsValidUTF8 →
      identOfBytes bytes = .error (.wrongValue .bytes .string)) ∧
    (∀ id : Ident,
      (ofIdent id).compact = "\"" ++ id.text ++ "\"" ∧
      identOfString id.text = .ok id ∧ identOfBytes id.text.toUTF8.data.toList = .ok id ∧
      identOfValue (ofIdent id) = .ok id ∧ identOfText (ofIdent id).compact = .ok id) := by
  refine ⟨?_, ?_, ?_, ?_, ?_, ?_, ?_⟩
  · intro s id
    rw [← Utf8.encode_eq_toUTF8, identOfBytes_encode, identOfValue_string, identOfString_eq_ok_iff]
    refine ⟨Iff.rfl, Iff.rfl, Iff.rfl, fun text rest begins blank => ?_⟩
    rw [identOfText_of_literal begins blank, ← identOfString_eq_ok_iff]
    cases identOfString s with
    | error e => simp [Except.mapError]
    | ok found => simp [Except.mapError]
  · intro s refused
    have outcome := identOfString_of_error refused
    rw [← Utf8.encode_eq_toUTF8, identOfBytes_encode, identOfValue_string]
    exact ⟨rfl, outcome, outcome, outcome, fun text rest begins =>
      identOfText_of_error begins outcome⟩
  · intro s id read text rest begins
    have outcome := identOfText_of_ok begins (identOfString_of_ok read)
    by_cases blank : ∀ c ∈ rest, Blank c
    · rw [expectEnd_of_blank blank] at outcome
      refine ⟨iff_of_true outcome blank, ?_⟩
      rintro ⟨c, member, noBlank⟩
      exact absurd (blank c member) noBlank
    · rw [expectEnd_of_not_blank blank] at outcome
      rw [outcome]
      exact ⟨iff_of_false nofun blank, fun _ => rfl⟩
  · intro text id read
    obtain ⟨s, rest, begins, -, blank⟩ := identOfText_eq_ok_iff.mp read
    exact ⟨s, rest, begins, blank⟩
  · intro v other
    have outcome := identOfValue_of_not_string other
    refine ⟨outcome, fun text read => ?_⟩
    rw [identOfText_of_document read, outcome]
    rfl
  · intro bytes invalid
    rw [identOfBytes, Utf8.decode?_eq_none_iff.mpr invalid]
  · intro id
    have read := identOfString_of_ok (Ident.ofText_text id)
    refine ⟨compact_ofIdent id, read, ?_, read, ?_⟩
    · rw [← Utf8.encode_eq_toUTF8, identOfBytes_encode, read]
    · rw [ofIdent, identOfText_of_literal (begins_compact id.text) (by simp), read]
      rfl

/-- An escape spells the first digit of an identifier, a pair of units a string that is none, and
other text follows; then a value that is no string, and a byte that is no character. -/
theorem routes_of_escapes :
    identOfText "\n\"\\u0030x0C229d94\"\t" = .ok ⟨0x0c229d94⟩ ∧
    identOfText "\n\"\\u0030x0C229d94\" ]" = .error (.read .malformed) ∧
    identOfText "\"\\uD83D\\ude00\" ]" = .error (.data (.ident (.malformed "😀"))) ∧
    identOfText " null" = .error (.data (.wrongType .null .string)) ∧
    identOfBytes [0xff] = .error (.wrongValue .bytes .string) := by
  have digit : Spells "0x0C229d94".toList "\\u0030x0C229d94".toList := by
    have first : SpellsChar '0' ['\\', 'u', '0', '0', '3', '0'] := .unit (by decide)
    exact .cons first (spells_flatMap_escape "x0C229d94".toList)
  have face : Spells "😀".toList "\\uD83D\\ude00".toList := by
    have pair : SpellsChar '😀'
        ('\\' :: 'u' :: (['D', '8', '3', 'D'] ++ '\\' :: 'u' :: ['d', 'e', '0', '0'])) :=
      .pair (by decide) (by decide) (by decide)
    exact .cons pair .nil
  have read : Ident.ofText "0x0C229d94" = .ok ⟨0x0c229d94⟩ := by decide +kernel
  have refused : ∀ id, Ident.ofText "😀" ≠ .ok id := nofun
  have cut : ¬ (List.toByteArray [0xff]).IsValidUTF8 := by
    rw [← Utf8.decode?_eq_none_iff]
    decide +kernel
  obtain ⟨routes, bad, good, -, other, bytes, -⟩ := every_route_reads_text
  refine ⟨?_, ?_, ?_, ?_, bytes [0xff] cut⟩
  · have begins : BeginsWithString "0x0C229d94" ['\t'] "\n\"\\u0030x0C229d94\"\t" :=
      ⟨['\n'], _, by simp [Blank], digit, rfl⟩
    exact ((routes _ _).2.2.2 _ _ begins (by simp [Blank])).mpr read
  · have begins : BeginsWithString "0x0C229d94" [' ', ']'] "\n\"\\u0030x0C229d94\" ]" :=
      ⟨['\n'], _, by simp [Blank], digit, rfl⟩
    exact (good _ _ read _ _ begins).2 ⟨']', by decide, by decide⟩
  · have begins : BeginsWithString "😀" [' ', ']'] "\"\\uD83D\\ude00\" ]" :=
      ⟨[], _, by simp, face, rfl⟩
    exact (bad "😀" refused).2.2.2.2 _ _ begins
  · exact (other .null nofun).2 " null" rfl

end ProtocolIdent.Json
