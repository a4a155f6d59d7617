import ProtocolIdent.Proofs.Text.Utf8.Character

/-!
# Reading UTF-8 back

The machine that splits bytes into pieces agrees with the encoder in both directions. From the
start of a character it reads the bytes of a character as that character
(`foldl_step_encodeChar`), and each step adds its byte, and no other, to what the pieces were
read from (`step_reads`). So a byte sequence is decoded exactly if it is the encoding of a text,
and then to that text (`decode?_eq_some_iff`).
-/
namespace ProtocolIdent.Utf8

/-! ## Steps of the machine -/

theorem step_in_range {u : Unfinished} {b : UInt8} (range : u.low ≤ b ∧ b ≤ u.high)
    (pieces : List Piece) :
    Scan.step { pieces, pending := some u } b = Scan.extend pieces u b :=
  if_pos range

/-- A byte out of range ends the character under way and is read afresh. -/
theorem step_out_of_range {u : Unfinished} {b : UInt8} (out : ¬ (u.low ≤ b ∧ b ≤ u.high))
    (pieces : List Piece) :
    Scan.step { pieces, pending := some u } b =
      Scan.step { pieces := .illFormed u.seen :: pieces } b :=
  if_neg out

theorem step_lead {u : Unfinished} {b : UInt8} (lead : Unfinished.ofLead? b = some u)
    (pieces : List Piece) : Scan.step { pieces } b = { pieces, pending := some u } := by
  have wide : ¬ b < 0x80 := by
    rw [UInt8.lt_iff_toNat_lt]
    have := Unfinished.lead_range lead
    change ¬ _ < 128
    omega
  change Scan.start pieces b = _
  unfold Scan.start
  rw [if_neg wide, lead]

/-! ## The machine reads what the encoder writes -/

theorem foldl_step_completes {u : Unfinished} {rest : List UInt8} {c : Char}
    (completed : u.Completes rest c) (pieces : List Piece) :
    rest.foldl Scan.step { pieces, pending := some u } = { pieces := .char c :: pieces } := by
  induction rest generalizing u with
  | nil => exact completed.elim
  | cons b rest ih =>
    obtain ⟨range, later⟩ := completed
    rw [List.foldl_cons, step_in_range range]
    unfold Scan.extend
    cases more : u.more with
    | zero =>
      simp only [more] at later
      rw [later.1, later.2]
      rfl
    | succ n =>
      simp only [more] at later
      exact ih later

/-- From the start of a character, the bytes of a character are read as that character. -/
theorem foldl_step_encodeChar (c : Char) (pieces : List Piece) :
    (String.utf8EncodeChar c).foldl Scan.step { pieces } = { pieces := .char c :: pieces } := by
  by_cases narrow : c.toNat < 0x80
  · have byte : (UInt8.ofNat c.toNat).toNat = c.toNat :=
      toNat_byte (Nat.lt_trans narrow (by decide))
    have ascii : UInt8.ofNat c.toNat < 0x80 := by
      rw [UInt8.lt_iff_toNat_lt, byte]
      exact narrow
    rw [encodeChar_one narrow]
    change Scan.start pieces _ = _
    unfold Scan.start
    rw [if_pos ascii, byte, Char.ofNat_toNat]
  · obtain ⟨b, u, rest, encoded, lead, completed⟩ := led_of_wide (Nat.le_of_not_lt narrow)
    rw [encoded, List.foldl_cons, step_lead lead, foldl_step_completes completed]

theorem foldl_step_encode (cs : List Char) (pieces : List Piece) :
    (cs.flatMap String.utf8EncodeChar).foldl Scan.step { pieces } =
      { pieces := (cs.map Piece.char).reverse ++ pieces } := by
  induction cs generalizing pieces with
  | nil => rfl
  | cons c cs ih =>
    rw [List.flatMap_cons, List.foldl_append, foldl_step_encodeChar, ih]
    simp

theorem split_encode (text : String) : split (encode text) = text.toList.map Piece.char := by
  have read := foldl_step_encode text.toList []
  rw [List.append_nil] at read
  rw [split, encode, read, Scan.finish, List.reverse_reverse]

/-! ## What the machine has read -/

/-- The character under way, if any, can only be completed to the encoding of a character. -/
def Scan.Sound (s : Scan) : Prop :=
  ∀ u, s.pending = some u → u.Sound

/-- The bytes behind a reading position. -/
def Scan.consumed (s : Scan) : List UInt8 :=
  s.finish.flatMap Piece.bytes

theorem sound_settled (pieces : List Piece) : Scan.Sound { pieces } :=
  fun _ under => nomatch under

theorem sound_pending (pieces : List Piece) {u : Unfinished} (sound : u.Sound) :
    Scan.Sound { pieces, pending := some u } := by
  intro u' under
  cases under
  exact sound

theorem consumed_settled (pieces : List Piece) :
    Scan.consumed { pieces } = pieces.reverse.flatMap Piece.bytes := rfl

theorem consumed_pending (pieces : List Piece) (u : Unfinished) :
    Scan.consumed { pieces, pending := some u } =
      pieces.reverse.flatMap Piece.bytes ++ u.seen := by
  simp [Scan.consumed, Scan.finish, Piece.bytes]

theorem start_reads (pieces : List Piece) (b : UInt8) :
    (Scan.start pieces b).Sound ∧
      (Scan.start pieces b).consumed = pieces.reverse.flatMap Piece.bytes ++ [b] := by
  unfold Scan.start
  split
  · rename_i ascii
    have number : (Char.ofNat b.toNat).toNat = b.toNat := by
      apply toNat_ofNat
      left
      have := b.toNat_lt
      omega
    have narrow : (Char.ofNat b.toNat).toNat < 0x80 := by
      rw [number]
      exact ascii
    have encoded : Piece.bytes (.char (Char.ofNat b.toNat)) = [b] := by
      rw [Piece.bytes, encodeChar_one narrow, number, UInt8.ofNat_toNat]
    refine ⟨sound_settled _, ?_⟩
    rw [consumed_settled, List.reverse_cons, List.flatMap_append, List.flatMap_singleton, encoded]
  · split
    · rename_i u lead
      refine ⟨sound_pending _ (Unfinished.sound_ofLead? lead), ?_⟩
      rw [consumed_pending, Unfinished.seen_ofLead? lead]
    · refine ⟨sound_settled _, ?_⟩
      rw [consumed_settled, List.reverse_cons, List.flatMap_append, List.flatMap_singleton,
        Piece.bytes]

theorem extend_reads (pieces : List Piece) {u : Unfinished} {b : UInt8} (sound : u.Sound)
    (range : u.low ≤ b ∧ b ≤ u.high) :
    (Scan.extend pieces u b).Sound ∧
      (Scan.extend pieces u b).consumed =
        pieces.reverse.flatMap Piece.bytes ++ u.seen ++ [b] := by
  unfold Scan.extend
  cases more : u.more with
  | zero =>
    have encoded := Unfinished.encodeChar_last sound range more
    refine ⟨sound_settled _, ?_⟩
    rw [consumed_settled, List.reverse_cons, List.flatMap_append, List.flatMap_singleton,
      Piece.bytes, encoded, List.append_assoc]
  | succ n =>
    refine ⟨sound_pending _ (Unfinished.sound_advance sound range more), ?_⟩
    change Scan.consumed { pieces, pending := some (u.advance b n) } = _
    rw [consumed_pending, List.append_assoc]
    rfl

/-- A step keeps soundness and reads exactly its byte. -/
theorem step_reads {s : Scan} (b : UInt8) (sound : s.Sound) :
    (s.step b).Sound ∧ (s.step b).consumed = s.consumed ++ [b] := by
  obtain ⟨pieces, pending⟩ := s
  cases pending with
  | none => exact start_reads pieces b
  | some u =>
    unfold Scan.step
    dsimp only
    split
    · rename_i range
      rw [consumed_pending]
      exact extend_reads pieces (sound u rfl) range
    · have afresh := start_reads (.illFormed u.seen :: pieces) b
      rw [List.reverse_cons, List.flatMap_append, List.flatMap_singleton] at afresh
      rw [consumed_pending]
      exact afresh

theorem foldl_step_reads (bytes : List UInt8) {s : Scan} (sound : s.Sound) :
    (bytes.foldl Scan.step s).Sound ∧
      (bytes.foldl Scan.step s).consumed = s.consumed ++ bytes := by
  induction bytes generalizing s with
  | nil => exact ⟨sound, (List.append_nil _).symm⟩
  | cons b bytes ih =>
    obtain ⟨sound', read⟩ := step_reads b sound
    obtain ⟨sound'', reads⟩ := ih sound'
    refine ⟨sound'', ?_⟩
    rw [List.foldl_cons, reads, read, List.append_assoc, List.singleton_append]

/-- The pieces of a byte sequence are its bytes, none lost and none added. -/
theorem flatMap_bytes_split (bytes : List UInt8) : (split bytes).flatMap Piece.bytes = bytes := by
  have read := (foldl_step_reads bytes (sound_settled [])).2
  rwa [consumed_settled] at read

/-! ## Decoding -/

theorem mapM_char?_eq_some_iff {pieces : List Piece} {cs : List Char} :
    pieces.mapM Piece.char? = some cs ↔ pieces = cs.map Piece.char := by
  induction pieces generalizing cs with
  | nil => cases cs <;> simp
  | cons p pieces ih =>
    cases p with
    | illFormed bytes => cases cs <;> simp [Piece.char?]
    | char c =>
      cases cs with
      | nil => simp [Piece.char?, Option.bind_eq_some_iff]
      | cons d cs =>
        simp only [List.mapM_cons, Piece.char?, Option.pure_def, Option.bind_eq_bind,
          Option.bind_some, Option.bind_eq_some_iff, ih, Option.some.injEq, List.cons.injEq,
          exists_eq_right_right, List.map_cons, Piece.char.injEq]
        exact and_comm

/-- A byte sequence is decoded exactly if it is the encoding of a text, and then to that text. -/
theorem decode?_eq_some_iff {bytes : List UInt8} {text : String} :
    decode? bytes = some text ↔ encode text = bytes := by
  unfold decode?
  rw [Option.map_eq_some_iff]
  constructor
  · intro decoded
    obtain ⟨cs, read, rfl⟩ := decoded
    have pieces := mapM_char?_eq_some_iff.mp read
    have bytesOf := flatMap_bytes_split bytes
    rw [pieces, List.flatMap_map] at bytesOf
    rw [encode, String.toList_ofList]
    exact bytesOf
  · intro encoded
    refine ⟨text.toList, ?_, String.ofList_toList⟩
    rw [← encoded]
    exact mapM_char?_eq_some_iff.mpr (split_encode text)

/-! ## Bytes of strings -/

/-- The encoding is the byte sequence that the string is stored as. -/
theorem encode_eq_toUTF8 (text : String) : encode text = text.toUTF8.data.toList := by
  have stored := String.utf8Encode_toList (b := text)
  unfold List.utf8Encode at stored
  rw [String.toUTF8, ← stored]
  simp [encode]

theorem encode_append (s t : String) : encode (s ++ t) = encode s ++ encode t := by
  rw [encode, String.toList_append, List.flatMap_append]
  rfl

theorem encode_join (pieces : List String) :
    encode (String.join pieces) = (pieces.map encode).flatten := by
  rw [encode, String.toList_join, List.flatMap_assoc, List.flatMap_def]
  rfl

theorem decode?_encode (text : String) : decode? (encode text) = some text :=
  decode?_eq_some_iff.mpr rfl

theorem encode_inj {s t : String} : encode s = encode t ↔ s = t := by
  constructor
  · intro same
    have decoded := decode?_encode s
    rw [same, decode?_encode] at decoded
    exact (Option.some.inj decoded).symm
  · intro same
    rw [same]

/-- What is not decoded is no UTF-8. -/
theorem decode?_eq_none_iff {bytes : List UInt8} :
    decode? bytes = none ↔ ¬ bytes.toByteArray.IsValidUTF8 := by
  constructor
  · intro undecoded valid
    obtain ⟨cs, same⟩ := valid
    have stored : encode (String.ofList cs) = bytes := by
      have content := congrArg (fun b => b.data.toList) same
      simpa [List.utf8Encode, encode] using content.symm
    rw [← stored, decode?_encode] at undecoded
    cases undecoded
  · intro invalid
    cases decoded : decode? bytes with
    | none => rfl
    | some text =>
      have encoded := decode?_eq_some_iff.mp decoded
      exact absurd ⟨text.toList, congrArg List.toByteArray encoded.symm⟩ invalid

/-! ## Texts of one byte a character -/

theorem encode_of_ascii {cs : List Char} (ascii : ∀ c ∈ cs, c.toNat < 128) :
    encode (String.ofList cs) = cs.map fun c => UInt8.ofNat c.toNat := by
  rw [encode, String.toList_ofList]
  induction cs with
  | nil => rfl
  | cons c cs ih =>
    have first := encodeChar_one (ascii c List.mem_cons_self)
    have later := ih fun d member => ascii d (List.mem_cons_of_mem c member)
    rw [List.flatMap_cons, first, later]
    rfl

/-- The characters that bytes below 128 stand for. -/
def asciiChars (bytes : List UInt8) : List Char :=
  bytes.map fun b => Char.ofNat b.toNat

/-- Bytes below 128 are the encoding of the characters that they stand for and of no others. -/
theorem toList_of_ascii {s : String} {bytes : List UInt8} (encoded : encode s = bytes)
    (ascii : ∀ b ∈ bytes, b.toNat < 128) : s.toList = asciiChars bytes := by
  have number : ∀ b ∈ bytes, (Char.ofNat b.toNat).toNat = b.toNat := fun b member =>
    toNat_ofNat (Or.inl (Nat.lt_trans (ascii b member) (by decide)))
  have back : encode (String.ofList (asciiChars bytes)) = bytes := by
    rw [encode_of_ascii, asciiChars, List.map_map]
    · refine (List.map_congr_left fun b member => ?_).trans (List.map_id bytes)
      rw [Function.comp_apply, number b member, UInt8.ofNat_toNat]
      rfl
    · intro c member
      obtain ⟨b, listed, rfl⟩ := List.mem_map.mp member
      rw [number b listed]
      exact ascii b listed
  rw [← encode_inj.mp (back.trans encoded.symm), String.toList_ofList]

/-- A byte below 128 stands in an encoding only where its character stands in the text. -/
theorem count_encode_of_ascii {a : Char} (ascii : a.toNat < 128) (text : String) :
    (encode text).count (UInt8.ofNat a.toNat) = text.toList.count a := by
  rw [encode]
  induction text.toList with
  | nil => rfl
  | cons c cs ih =>
    rw [List.flatMap_cons, List.count_append, ih, List.count_cons]
    have narrow : (UInt8.ofNat a.toNat).toNat = a.toNat := toNat_byte (by omega)
    by_cases wide : 0x80 ≤ c.toNat
    · have other : c ≠ a := by
        rintro rfl
        omega
      have absent : UInt8.ofNat a.toNat ∉ String.utf8EncodeChar c := by
        intro member
        have tail := le_of_mem_encodeChar wide member
        omega
      rw [List.count_eq_zero.mpr absent, if_neg (by simpa using other), Nat.zero_add, Nat.add_zero]
    · have same : UInt8.ofNat c.toNat = UInt8.ofNat a.toNat ↔ c = a := by
        rw [← UInt8.toNat_inj, narrow, toNat_byte (by omega), Char.toNat_inj]
      rw [encodeChar_one (by omega), List.count_singleton, Nat.add_comm]
      simp only [beq_iff_eq, same]

end ProtocolIdent.Utf8
