import ProtocolIdent.Proofs.Text.Utf8.Decode

/-!
# Characters and ill-formed parts

A byte that continues no character begins a new piece whatever stands before it, so bytes can be
split before and after it apart (`split_append`): text around a byte sequence has no effect on how
that sequence is split (`split_between`). The split is described without the machine by
`IsSplit`: every piece is a character, or the longest bytes that can begin one and at least a
byte; and there is one such split (`isSplit_iff`).
-/
namespace ProtocolIdent.Utf8

/-! ## Pieces are read one after the other -/

/-- The pieces read before have no effect on a step. -/
theorem step_append (pieces before : List Piece) (pending : Option Unfinished) (b : UInt8) :
    Scan.step { pieces := pieces ++ before, pending } b =
      { pieces := (Scan.step { pieces, pending } b).pieces ++ before,
        pending := (Scan.step { pieces, pending } b).pending } := by
  have start (ps : List Piece) : Scan.start (ps ++ before) b =
      { pieces := (Scan.start ps b).pieces ++ before, pending := (Scan.start ps b).pending } := by
    unfold Scan.start
    split
    · rfl
    · split <;> rfl
  cases pending with
  | none => exact start pieces
  | some u =>
    unfold Scan.step
    dsimp only
    split
    · unfold Scan.extend
      cases u.more <;> rfl
    · exact start (.illFormed u.seen :: pieces)

theorem foldl_step_append (bytes : List UInt8) (pieces before : List Piece)
    (pending : Option Unfinished) :
    bytes.foldl Scan.step { pieces := pieces ++ before, pending } =
      { pieces := (bytes.foldl Scan.step { pieces, pending }).pieces ++ before,
        pending := (bytes.foldl Scan.step { pieces, pending }).pending } := by
  induction bytes generalizing pieces pending with
  | nil => rfl
  | cons b bytes ih => rw [List.foldl_cons, step_append, ih, List.foldl_cons]

/-- From the start of a character, what is read comes behind the pieces read before. -/
theorem finish_foldl_step (bytes : List UInt8) (before : List Piece) :
    (bytes.foldl Scan.step { pieces := before }).finish = before.reverse ++ split bytes := by
  have apart := foldl_step_append bytes [] before none
  rw [List.nil_append] at apart
  rw [apart, split]
  unfold Scan.finish
  cases (bytes.foldl Scan.step {}).pending <;> simp

@[simp] theorem split_nil : split [] = [] := rfl

theorem split_encodeChar_append (c : Char) (rest : List UInt8) :
    split (String.utf8EncodeChar c ++ rest) = .char c :: split rest := by
  rw [split, List.foldl_append, foldl_step_encodeChar, finish_foldl_step]
  rfl

theorem split_encode_append (text : String) (rest : List UInt8) :
    split (encode text ++ rest) = text.toList.map Piece.char ++ split rest := by
  rw [split, encode, List.foldl_append, foldl_step_encode, List.append_nil, finish_foldl_step,
    List.reverse_reverse]

/-- Encodings of characters are a prefix code. -/
theorem encodeChar_append_inj {c d : Char} {xs ys : List UInt8} :
    String.utf8EncodeChar c ++ xs = String.utf8EncodeChar d ++ ys ↔ c = d ∧ xs = ys := by
  constructor
  · intro same
    have pieces := congrArg split same
    rw [split_encodeChar_append, split_encodeChar_append] at pieces
    obtain rfl : c = d := by
      injection pieces with first
      injection first
    exact ⟨rfl, List.append_cancel_left same⟩
  · rintro ⟨rfl, rfl⟩
    rfl

/-! ## Characters under way -/

/-- A byte that continues a character. -/
def IsTail (b : UInt8) : Prop :=
  0x80 ≤ b.toNat ∧ b.toNat ≤ 0xBF

instance (b : UInt8) : Decidable (IsTail b) :=
  inferInstanceAs (Decidable (_ ∧ _))

namespace Unfinished

/-- What holds of every character under way: some byte can follow, only a tail can, and it is
completed to all characters whose encodings begin with the bytes seen, and to no other. -/
structure Regular (u : Unfinished) : Prop where
  low : 0x80 ≤ u.low.toNat
  high : u.high.toNat ≤ 0xBF
  some : u.low ≤ u.high
  sound : u.Sound
  complete : ∀ (rest : List UInt8) (c : Char),
    String.utf8EncodeChar c = u.seen ++ rest → u.Completes rest c

variable {u : Unfinished} {b : UInt8}

theorem range_ofLead? (lead : ofLead? b = some u) :
    0x80 ≤ u.low.toNat ∧ u.high.toNat ≤ 0xBF ∧ u.low ≤ u.high := by
  have all : ∀ v ∈ ofLead? b, 0x80 ≤ v.low.toNat ∧ v.high.toNat ≤ 0xBF ∧ v.low ≤ v.high :=
    forall_byte (by decide +kernel) b
  exact all u lead

theorem regular_ofLead? (lead : ofLead? b = some u) : u.Regular where
  low := (range_ofLead? lead).1
  high := (range_ofLead? lead).2.1
  some := (range_ofLead? lead).2.2
  sound := sound_ofLead? lead
  complete := by
    intro rest c encoded
    rw [seen_ofLead? lead] at encoded
    have range := lead_range lead
    have wide : 0x80 ≤ c.toNat := by
      refine Nat.le_of_not_lt fun narrow => ?_
      have byte := toNat_byte (by omega : c.toNat < 256)
      rw [encodeChar_one (by omega)] at encoded
      obtain ⟨rfl, -⟩ := List.cons.inj encoded
      omega
    obtain ⟨b', u', rest', encoded', lead', completed⟩ := led_of_wide wide
    obtain ⟨rfl, rfl⟩ := List.cons.inj (encoded'.symm.trans encoded)
    cases lead.symm.trans lead'
    exact completed

theorem regular_advance {n : Nat} (regular : u.Regular) (range : u.low ≤ b ∧ b ≤ u.high)
    (more : u.more = n + 1) : (u.advance b n).Regular where
  low := Nat.le_refl _
  high := Nat.le_refl _
  some := (by decide : (0x80 : UInt8) ≤ 0xBF)
  sound := sound_advance regular.sound range more
  complete := by
    intro rest c encoded
    have whole := regular.complete (b :: rest) c
      (by rw [encoded, advance, List.append_assoc, List.singleton_append])
    simp only [Completes, more] at whole
    exact whole.2

/-- What is under way can be completed. -/
theorem Regular.exists_completes (regular : u.Regular) : ∃ rest c, u.Completes rest c := by
  have range : u.low ≤ u.low ∧ u.low ≤ u.high := ⟨UInt8.le_refl _, regular.some⟩
  induction more : u.more generalizing u with
  | zero =>
    refine ⟨[u.low], Char.ofNat (u.bits * 64 + (u.low.toNat - 0x80)), ?_⟩
    simp only [Completes, more, and_true]
    exact range
  | succ n ih =>
    have next := regular_advance regular range more
    obtain ⟨rest, c, completed⟩ := ih next ⟨UInt8.le_refl _, next.some⟩ rfl
    refine ⟨u.low :: rest, c, ?_⟩
    simp only [Completes, more]
    exact ⟨range, completed⟩

end Unfinished

/-- The character under way, if any, is regular. -/
def Scan.Regular (s : Scan) : Prop :=
  ∀ u, s.pending = some u → u.Regular

theorem regular_settled (pieces : List Piece) : Scan.Regular { pieces } :=
  fun _ under => nomatch under

theorem regular_pending (pieces : List Piece) {u : Unfinished} (regular : u.Regular) :
    Scan.Regular { pieces, pending := some u } := by
  intro u' under
  cases under
  exact regular

theorem regular_start (pieces : List Piece) (b : UInt8) : (Scan.start pieces b).Regular := by
  unfold Scan.start
  split
  · exact regular_settled _
  · split
    · rename_i u lead
      exact regular_pending _ (Unfinished.regular_ofLead? lead)
    · exact regular_settled _

theorem regular_step {s : Scan} (b : UInt8) (regular : s.Regular) : (s.step b).Regular := by
  obtain ⟨pieces, pending⟩ := s
  cases pending with
  | none => exact regular_start pieces b
  | some u =>
    unfold Scan.step
    dsimp only
    split
    · rename_i range
      unfold Scan.extend
      cases more : u.more with
      | zero => exact regular_settled _
      | succ n => exact regular_pending _ (Unfinished.regular_advance (regular u rfl) range more)
    · exact regular_start _ b

theorem regular_foldl_step (bytes : List UInt8) {s : Scan} (regular : s.Regular) :
    (bytes.foldl Scan.step s).Regular := by
  induction bytes generalizing s with
  | nil => exact regular
  | cons b bytes ih => exact ih (regular_step b regular)

/-! ## Bytes before and after a boundary -/

/-- A byte that continues no character is read as at the start of one: what is under way has
ended. -/
theorem step_of_not_tail {s : Scan} {b : UInt8} (regular : s.Regular) (noTail : ¬ IsTail b) :
    s.step b = Scan.step { pieces := s.finish.reverse } b := by
  obtain ⟨pieces, pending⟩ := s
  cases pending with
  | none => rw [Scan.finish, List.reverse_reverse]
  | some u =>
    have out : ¬ (u.low ≤ b ∧ b ≤ u.high) := by
      rintro ⟨low, high⟩
      exact noTail ⟨Nat.le_trans (regular u rfl).low low, Nat.le_trans high (regular u rfl).high⟩
    rw [Scan.finish, List.reverse_reverse]
    exact step_out_of_range out pieces

/-- Bytes are split before and after a boundary apart. -/
theorem split_append {front back : List UInt8} (boundary : ∀ b ∈ back.head?, ¬ IsTail b) :
    split (front ++ back) = split front ++ split back := by
  cases back with
  | nil => simp
  | cons b back =>
    have regular := regular_foldl_step front (regular_settled [])
    have ended := step_of_not_tail regular (boundary b rfl)
    rw [split, List.foldl_append, List.foldl_cons, ended, ← List.foldl_cons, finish_foldl_step,
      List.reverse_reverse, ← split]

theorem exists_first_byte (c : Char) :
    ∃ b rest, String.utf8EncodeChar c = b :: rest ∧ ¬ IsTail b := by
  by_cases narrow : c.toNat < 0x80
  · have byte := toNat_byte (by omega : c.toNat < 256)
    refine ⟨_, _, encodeChar_one narrow, ?_⟩
    unfold IsTail
    omega
  · obtain ⟨lead, u, rest, encoded, leads, -⟩ := led_of_wide (Nat.le_of_not_lt narrow)
    have range := Unfinished.lead_range leads
    refine ⟨lead, rest, encoded, ?_⟩
    unfold IsTail
    omega

theorem encodeChar_ne_nil (c : Char) : String.utf8EncodeChar c ≠ [] := by
  obtain ⟨b, rest, encoded, -⟩ := exists_first_byte c
  rw [encoded]
  exact List.cons_ne_nil b rest

/-- A text begins at a boundary. -/
theorem not_isTail_head_encode (text : String) : ∀ b ∈ (encode text).head?, ¬ IsTail b := by
  rw [encode]
  cases text.toList with
  | nil => simp
  | cons c cs =>
    obtain ⟨b, rest, encoded, noTail⟩ := exists_first_byte c
    rw [List.flatMap_cons, encoded]
    rintro b' member
    cases member
    exact noTail

/-- Text around bytes has no effect on how they are split. -/
theorem split_between (before : String) (bytes : List UInt8) (after : String) :
    split (encode before ++ bytes ++ encode after) =
      before.toList.map Piece.char ++ split bytes ++ after.toList.map Piece.char := by
  rw [split_append (not_isTail_head_encode after), split_encode_append, split_encode]

/-! ## What is shown of bytes -/

/-- Some part of the bytes is ill-formed. -/
def Broken (bytes : List UInt8) : Prop :=
  ∃ part, .illFormed part ∈ split bytes

theorem mapM_char?_eq_none_iff {pieces : List Piece} :
    pieces.mapM Piece.char? = none ↔ ∃ part, .illFormed part ∈ pieces := by
  induction pieces with
  | nil => simp
  | cons p pieces ih =>
    cases p with
    | illFormed part => exact iff_of_true rfl ⟨part, List.mem_cons_self⟩
    | char c =>
      simp only [List.mapM_cons, Piece.char?, List.mem_cons, reduceCtorEq, false_or]
      rw [← ih]
      cases pieces.mapM Piece.char? <;> simp

theorem decode?_eq_none_iff_broken {bytes : List UInt8} :
    decode? bytes = none ↔ Broken bytes := by
  rw [decode?, Option.map_eq_none_iff, mapM_char?_eq_none_iff]
  rfl

theorem broken_between_iff {before after : String} {bytes : List UInt8} :
    Broken (encode before ++ bytes ++ encode after) ↔ Broken bytes := by
  unfold Broken
  rw [split_between]
  simp

/-- Text around bytes is shown as it is. -/
theorem lossy_between (before : String) (bytes : List UInt8) (after : String) :
    lossy (encode before ++ bytes ++ encode after) = before ++ lossy bytes ++ after := by
  have kept (text : String) : (text.toList.map Piece.char).map Piece.shown = text.toList := by
    rw [List.map_map]
    exact List.map_id text.toList
  apply String.toList_inj.mp
  rw [lossy, split_between, List.map_append, List.map_append, kept, kept]
  simp [lossy]

theorem lossy_encode (text : String) : lossy (encode text) = text := by
  rw [lossy, split_encode, List.map_map]
  exact (congrArg String.ofList (List.map_id text.toList)).trans String.ofList_toList

theorem Broken.replacement_mem {bytes : List UInt8} (broken : Broken bytes) :
    '\uFFFD' ∈ (lossy bytes).toList := by
  obtain ⟨part, member⟩ := broken
  rw [lossy, String.toList_ofList]
  exact List.mem_map.mpr ⟨_, member, rfl⟩

/-! ## Maximal ill-formed parts -/

/-- The bytes are the first of the encoding of a character, or all of them. -/
def Begins (bytes : List UInt8) : Prop :=
  ∃ c, bytes <+: String.utf8EncodeChar c

/-- The longest bytes at the front that begin a character, and at least a byte. -/
structure MaximalPart (part bytes : List UInt8) : Prop where
  front : part <+: bytes
  some : part ≠ []
  begins : Begins part ∨ part.length = 1
  longest : ∀ other, other <+: bytes → Begins other ∨ other.length = 1 →
    other.length ≤ part.length

/-- A division of bytes into characters and, where none stands, maximal ill-formed parts. -/
inductive IsSplit : List UInt8 → List Piece → Prop
  | nil : IsSplit [] []
  | char {c : Char} {rest : List UInt8} {pieces : List Piece} (later : IsSplit rest pieces) :
      IsSplit (String.utf8EncodeChar c ++ rest) (.char c :: pieces)
  | illFormed {part rest : List UInt8} {pieces : List Piece}
      (noChar : ∀ c, ¬ String.utf8EncodeChar c <+: part ++ rest)
      (maximal : MaximalPart part (part ++ rest)) (later : IsSplit rest pieces) :
      IsSplit (part ++ rest) (.illFormed part :: pieces)

theorem Begins.of_prefix {front bytes : List UInt8} (begins : Begins bytes)
    (first : front <+: bytes) : Begins front := by
  obtain ⟨c, whole⟩ := begins
  exact ⟨c, first.trans whole⟩

theorem MaximalPart.ends {part rest : List UInt8} {b : UInt8}
    (maximal : MaximalPart part (part ++ b :: rest)) : ¬ Begins (part ++ [b]) := by
  intro begins
  have front : part ++ [b] <+: part ++ b :: rest := ⟨rest, by simp⟩
  have length := maximal.longest _ front (Or.inl begins)
  rw [List.length_append, List.length_singleton] at length
  omega

/-- The bytes begin a character, and more must follow. -/
def BeginsShort (bytes : List UInt8) : Prop :=
  ∃ c rest, String.utf8EncodeChar c = bytes ++ rest ∧ rest ≠ []

/-- No character is a beginning of another. -/
theorem BeginsShort.not_prefix {bytes : List UInt8} (short : BeginsShort bytes) (c : Char) :
    ¬ String.utf8EncodeChar c <+: bytes := by
  rintro ⟨tail, rfl⟩
  obtain ⟨d, rest, encoded, more⟩ := short
  rw [List.append_assoc] at encoded
  have same := encodeChar_append_inj.mp ((List.append_nil _).trans encoded)
  exact more (List.append_eq_nil_iff.mp same.2.symm).2

/-- Bytes that can go on, but not with the byte that follows, are a maximal ill-formed part. -/
theorem maximalPart_of_short {part rest : List UInt8} (some : part ≠ [])
    (short : BeginsShort part) (ends : ∀ b ∈ rest.head?, ¬ Begins (part ++ [b])) :
    (∀ c, ¬ String.utf8EncodeChar c <+: part ++ rest) ∧ MaximalPart part (part ++ rest) := by
  have longest : ∀ other, other <+: part ++ rest → Begins other → other <+: part := by
    intro other front begins
    rcases List.prefix_or_prefix_of_prefix front (List.prefix_append part rest) with
      within | ⟨tail, rfl⟩
    · exact within
    · cases tail with
      | nil => simp
      | cons b tail =>
        obtain ⟨left, rfl⟩ := (List.prefix_append_right_inj part).mp front
        have first : part ++ [b] <+: part ++ b :: tail := ⟨tail, by simp⟩
        exact absurd (begins.of_prefix first) (ends b rfl)
  constructor
  · intro c front
    exact short.not_prefix c (longest _ front ⟨c, List.prefix_rfl⟩)
  · obtain ⟨c, more, encoded, -⟩ := short
    refine ⟨List.prefix_append part rest, some, Or.inl ⟨c, more, encoded.symm⟩, ?_⟩
    rintro other front (begins | one)
    · exact (longest other front begins).length_le
    · have := List.length_pos_iff.mpr some
      omega

namespace Unfinished

variable {u : Unfinished} {b : UInt8}

theorem Regular.beginsShort (regular : u.Regular) : BeginsShort u.seen := by
  obtain ⟨rest, c, completed⟩ := regular.exists_completes
  refine ⟨c, rest, regular.sound rest c completed, ?_⟩
  rintro rfl
  exact completed

/-- The bytes in range are those with which a character can go on. -/
theorem Regular.in_range_of_begins (regular : u.Regular) (begins : Begins (u.seen ++ [b])) :
    u.low ≤ b ∧ b ≤ u.high := by
  obtain ⟨c, rest, encoded⟩ := begins
  have completed := regular.complete (b :: rest) c (by rw [← encoded]; simp)
  exact completed.1

end Unfinished

/-- Reading on with a character under way ends with the character, or with the part of one that
has begun. -/
theorem finish_under_way {u : Unfinished} (regular : u.Regular) (bytes : List UInt8)
    (pieces : List Piece) :
    (∃ c rest left, bytes = rest ++ left ∧ String.utf8EncodeChar c = u.seen ++ rest ∧
      (bytes.foldl Scan.step { pieces, pending := some u }).finish =
        pieces.reverse ++ .char c :: split left) ∨
    (∃ more left, bytes = more ++ left ∧ BeginsShort (u.seen ++ more) ∧
      (∀ b ∈ left.head?, ¬ Begins (u.seen ++ more ++ [b])) ∧
      (bytes.foldl Scan.step { pieces, pending := some u }).finish =
        pieces.reverse ++ .illFormed (u.seen ++ more) :: split left) := by
  induction bytes generalizing u with
  | nil =>
    right
    refine ⟨[], [], rfl, ?_, nofun, ?_⟩
    · rw [List.append_nil]
      exact regular.beginsShort
    · simp [Scan.finish]
  | cons b bytes ih =>
    by_cases range : u.low ≤ b ∧ b ≤ u.high
    · rw [List.foldl_cons, step_in_range range]
      unfold Scan.extend
      cases more : u.more with
      | zero =>
        left
        refine ⟨_, [b], bytes, rfl, Unfinished.encodeChar_last regular.sound range more, ?_⟩
        rw [finish_foldl_step, List.reverse_cons, List.append_assoc]
        rfl
      | succ n =>
        have seen : ∀ rest, (u.advance b n).seen ++ rest = u.seen ++ b :: rest := by
          simp [Unfinished.advance]
        rcases ih (Unfinished.regular_advance regular range more) with
          ⟨c, rest, left, rfl, encoded, finish⟩ | ⟨rest, left, rfl, short, ends, finish⟩
        · rw [seen] at encoded
          exact Or.inl ⟨c, b :: rest, left, rfl, encoded, finish⟩
        · rw [seen] at short ends finish
          exact Or.inr ⟨b :: rest, left, rfl, short, ends, finish⟩
    · right
      refine ⟨[], b :: bytes, rfl, ?_, ?_, ?_⟩
      · rw [List.append_nil]
        exact regular.beginsShort
      · rintro b' first begins
        cases first
        rw [List.append_nil] at begins
        exact range (regular.in_range_of_begins begins)
      · rw [List.foldl_cons, step_out_of_range range, ← List.foldl_cons, finish_foldl_step,
          List.reverse_cons, List.append_assoc, List.append_nil]
        rfl

theorem split_ascii {b : UInt8} (ascii : b < 0x80) (rest : List UInt8) :
    ∃ c, String.utf8EncodeChar c = [b] ∧ split (b :: rest) = .char c :: split rest := by
  have number : (Char.ofNat b.toNat).toNat = b.toNat :=
    toNat_ofNat (Or.inl (Nat.lt_trans ascii (by decide)))
  have encoded : String.utf8EncodeChar (Char.ofNat b.toNat) = [b] := by
    rw [encodeChar_one (by rw [number]; exact ascii), number, UInt8.ofNat_toNat]
  refine ⟨_, encoded, ?_⟩
  rw [← split_encodeChar_append, encoded]
  rfl

theorem split_no_lead {b : UInt8} (wide : ¬ b < 0x80) (noLead : Unfinished.ofLead? b = none)
    (rest : List UInt8) : split (b :: rest) = .illFormed [b] :: split rest := by
  have step : Scan.step {} b = { pieces := [.illFormed [b]] } := by
    change Scan.start [] b = _
    unfold Scan.start
    rw [if_neg wide, noLead]
  rw [split, List.foldl_cons, step, finish_foldl_step]
  rfl

theorem lead_of_begins {b : UInt8} {rest : List UInt8} (wide : ¬ b < 0x80)
    (begins : Begins (b :: rest)) : Unfinished.ofLead? b ≠ none := by
  obtain ⟨c, more, encoded⟩ := begins
  by_cases narrow : c.toNat < 0x80
  · rw [encodeChar_one narrow] at encoded
    obtain ⟨rfl, -⟩ := List.cons.inj encoded
    refine absurd ?_ wide
    rw [UInt8.lt_iff_toNat_lt, toNat_byte (by omega)]
    exact narrow
  · obtain ⟨lead, u, tail, encoded', leads, -⟩ := led_of_wide (Nat.le_of_not_lt narrow)
    obtain ⟨rfl, -⟩ := List.cons.inj (encoded'.symm.trans encoded.symm)
    rw [leads]
    exact nofun

/-- The first piece of the split is a character, or else a maximal ill-formed part. -/
theorem split_cons (b : UInt8) (bytes : List UInt8) :
    (∃ c rest, b :: bytes = String.utf8EncodeChar c ++ rest ∧
      split (b :: bytes) = .char c :: split rest) ∨
    (∃ part rest, b :: bytes = part ++ rest ∧
      (∀ c, ¬ String.utf8EncodeChar c <+: part ++ rest) ∧ MaximalPart part (part ++ rest) ∧
      split (b :: bytes) = .illFormed part :: split rest) := by
  by_cases ascii : b < 0x80
  · obtain ⟨c, encoded, pieces⟩ := split_ascii ascii bytes
    exact Or.inl ⟨c, bytes, by rw [encoded]; rfl, pieces⟩
  · cases lead : Unfinished.ofLead? b with
    | none =>
      have none : ∀ part, part <+: b :: bytes → Begins part → part = [] := by
        intro part front begins
        cases part with
        | nil => rfl
        | cons x part =>
          obtain ⟨rfl, -⟩ := List.cons_prefix_cons.mp front
          exact absurd lead (lead_of_begins ascii begins)
      right
      refine ⟨[b], bytes, rfl, ?_, ⟨⟨bytes, rfl⟩, by simp, Or.inr rfl, ?_⟩,
        split_no_lead ascii lead bytes⟩
      · intro c front
        exact encodeChar_ne_nil c (none _ front ⟨c, List.prefix_rfl⟩)
      · rintro other front (begins | one)
        · rw [none other front begins]
          exact Nat.zero_le 1
        · exact Nat.le_of_eq one
    | some u =>
      have seen := Unfinished.seen_ofLead? lead
      have read := finish_under_way (Unfinished.regular_ofLead? lead) bytes []
      rw [← step_lead lead, ← List.foldl_cons, ← split, seen] at read
      rcases read with ⟨c, rest, left, rfl, encoded, pieces⟩ | ⟨more, left, rfl, short, ends, pieces⟩
      · exact Or.inl ⟨c, left, by rw [encoded]; rfl, pieces⟩
      · obtain ⟨noChar, maximal⟩ := maximalPart_of_short (by simp) short ends
        exact Or.inr ⟨_, left, rfl, noChar, maximal, pieces⟩

theorem isSplit_split (bytes : List UInt8) : IsSplit bytes (split bytes) := by
  match bytes with
  | [] => exact .nil
  | b :: bytes =>
    rcases split_cons b bytes with
      ⟨c, rest, same, pieces⟩ | ⟨part, rest, same, noChar, maximal, pieces⟩
    · have some := List.length_pos_iff.mpr (encodeChar_ne_nil c)
      have shorter : rest.length < (b :: bytes).length := by
        rw [same, List.length_append]
        omega
      rw [pieces, same]
      exact .char (isSplit_split rest)
    · have some := List.length_pos_iff.mpr maximal.some
      have shorter : rest.length < (b :: bytes).length := by
        rw [same, List.length_append]
        omega
      rw [pieces, same]
      exact .illFormed noChar maximal (isSplit_split rest)
termination_by bytes.length
decreasing_by all_goals exact shorter

theorem MaximalPart.unique {part other bytes : List UInt8} (first : MaximalPart part bytes)
    (second : MaximalPart other bytes) : part = other := by
  have length := Nat.le_antisymm (second.longest part first.front first.begins)
    (first.longest other second.front second.begins)
  exact (List.prefix_of_prefix_length_le first.front second.front
    (Nat.le_of_eq length)).eq_of_length length

theorem IsSplit.unique {bytes : List UInt8} {pieces others : List Piece}
    (first : IsSplit bytes pieces) (second : IsSplit bytes others) : pieces = others := by
  induction first generalizing others with
  | nil =>
    generalize same : [] = bytes at second
    cases second with
    | nil => rfl
    | char later => exact absurd (List.append_eq_nil_iff.mp same.symm).1 (encodeChar_ne_nil _)
    | illFormed noChar maximal later =>
      exact absurd (List.append_eq_nil_iff.mp same.symm).1 maximal.some
  | @char c rest pieces later ih =>
    generalize same : String.utf8EncodeChar c ++ rest = bytes at second
    cases second with
    | nil => exact absurd (List.append_eq_nil_iff.mp same).1 (encodeChar_ne_nil c)
    | char later' =>
      obtain ⟨rfl, rfl⟩ := encodeChar_append_inj.mp same
      rw [ih later']
    | illFormed noChar maximal later' =>
      exact absurd ⟨rest, same⟩ (noChar c)
  | @illFormed part rest pieces noChar maximal later ih =>
    generalize same : part ++ rest = bytes at second
    cases second with
    | nil => exact absurd (List.append_eq_nil_iff.mp same).1 maximal.some
    | char later' => exact absurd ⟨_, same.symm⟩ (noChar _)
    | illFormed noChar' maximal' later' =>
      rw [same] at maximal
      obtain rfl := maximal.unique maximal'
      obtain rfl := List.append_cancel_left same
      rw [ih later']

theorem isSplit_iff {bytes : List UInt8} {pieces : List Piece} :
    IsSplit bytes pieces ↔ pieces = split bytes := by
  constructor
  · intro divided
    exact divided.unique (isSplit_split bytes)
  · rintro rfl
    exact isSplit_split bytes

end ProtocolIdent.Utf8
