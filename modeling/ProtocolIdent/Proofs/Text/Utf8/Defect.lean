import ProtocolIdent.Proofs.Text.Utf8.Split

/-!
# What keeps bytes from being UTF-8

Eight kinds of defects are told apart by a byte or two: overlong forms of two, three and four
bytes, surrogates, numbers that are too great, bytes that lead nothing, tails that continue
nothing, and characters cut off. Bytes are not decoded exactly if there is a defect at some place
(`decode?_eq_none_iff_defect`), and nothing before or after that place mends it.
-/
namespace ProtocolIdent.Utf8

/-- What is wrong at the place behind some bytes with the bytes from there on. -/
inductive Defect (before : List UInt8) : List UInt8 → Prop
  | overlongTwo {b : UInt8} {after : List UInt8} (lead : b = 0xC0 ∨ b = 0xC1) :
      Defect before (b :: after)
  | overlongThree {b : UInt8} {after : List UInt8} (low : 0x80 ≤ b) (high : b ≤ 0x9F) :
      Defect before (0xE0 :: b :: after)
  | overlongFour {b : UInt8} {after : List UInt8} (low : 0x80 ≤ b) (high : b ≤ 0x8F) :
      Defect before (0xF0 :: b :: after)
  | surrogate {b : UInt8} {after : List UInt8} (low : 0xA0 ≤ b) (high : b ≤ 0xBF) :
      Defect before (0xED :: b :: after)
  | tooGreat {b : UInt8} {after : List UInt8} (low : 0x90 ≤ b) (high : b ≤ 0xBF) :
      Defect before (0xF4 :: b :: after)
  | noLead {b : UInt8} {after : List UInt8} (low : 0xF5 ≤ b) : Defect before (b :: after)
  /-- A tail at the very start, or right behind a whole character. -/
  | stray {b : UInt8} {after : List UInt8} (tail : IsTail b)
      (complete : before = [] ∨ ∃ front c, before = front ++ String.utf8EncodeChar c) :
      Defect before (b :: after)
  /-- The first bytes of a character, at the very end or before a byte that is no tail. -/
  | cut {c : Char} {part missing after : List UInt8}
      (encoded : String.utf8EncodeChar c = part ++ missing) (begun : part ≠ [])
      (short : missing ≠ []) (ended : ∀ b ∈ after.head?, ¬ IsTail b) :
      Defect before (part ++ after)

/-! ## A defect is not mended -/

/-- What stands before a byte that continues no character mends nothing behind it. -/
theorem Broken.behind {b : UInt8} {bytes : List UInt8} (broken : Broken (b :: bytes))
    (noTail : ¬ IsTail b) (before : List UInt8) : Broken (before ++ b :: bytes) := by
  have boundary : ∀ b' ∈ (b :: bytes).head?, ¬ IsTail b' := by
    rintro b' first
    cases first
    exact noTail
  obtain ⟨part, member⟩ := broken
  refine ⟨part, ?_⟩
  rw [split_append boundary]
  exact List.mem_append_right _ member

theorem Broken.behind_char {bytes : List UInt8} (broken : Broken bytes) (before : List UInt8)
    (c : Char) : Broken (before ++ (String.utf8EncodeChar c ++ bytes)) := by
  obtain ⟨part, member⟩ := broken
  have whole : Broken (String.utf8EncodeChar c ++ bytes) := by
    refine ⟨part, ?_⟩
    rw [split_encodeChar_append]
    exact List.mem_cons_of_mem _ member
  obtain ⟨b, rest, encoded, noTail⟩ := exists_first_byte c
  rw [encoded] at whole ⊢
  exact whole.behind noTail before

theorem broken_of_no_lead {b : UInt8} (wide : ¬ b < 0x80)
    (noLead : Unfinished.ofLead? b = none) (after : List UInt8) : Broken (b :: after) := by
  refine ⟨[b], ?_⟩
  rw [split_no_lead wide noLead]
  exact List.mem_cons_self

theorem broken_of_out_of_range {b next : UInt8} {u : Unfinished}
    (lead : Unfinished.ofLead? b = some u) (out : ¬ (u.low ≤ next ∧ next ≤ u.high))
    (after : List UInt8) : Broken (b :: next :: after) := by
  refine ⟨u.seen, ?_⟩
  rw [split, List.foldl_cons, step_lead lead, List.foldl_cons, step_out_of_range out,
    ← List.foldl_cons, finish_foldl_step]
  simp

theorem broken_of_short {part after : List UInt8} (begun : part ≠ []) (short : BeginsShort part)
    (ended : ∀ b ∈ after.head?, ¬ IsTail b) : Broken (part ++ after) := by
  have alone : IsSplit part [.illFormed part] := by
    have ends : ∀ b ∈ ([] : List UInt8).head?, ¬ Begins (part ++ [b]) := nofun
    obtain ⟨noChar, maximal⟩ := maximalPart_of_short begun short ends
    have divided := IsSplit.illFormed noChar maximal .nil
    rwa [List.append_nil] at divided
  refine ⟨part, ?_⟩
  rw [split_append ended, ← isSplit_iff.mp alone]
  exact List.mem_cons_self

theorem noLead_of_tail {b : UInt8} (tail : IsTail b) :
    ¬ b < 0x80 ∧ Unfinished.ofLead? b = none := by
  revert tail
  exact forall_byte (by decide +kernel) b

/-- A byte may only be followed by what its range allows, wherever it stands. -/
theorem broken_behind_lead (before : List UInt8) {b next : UInt8} {u : Unfinished}
    (lead : Unfinished.ofLead? b = some u) (out : ¬ (u.low ≤ next ∧ next ≤ u.high))
    (after : List UInt8) : Broken (before ++ b :: next :: after) := by
  refine (broken_of_out_of_range lead out after).behind ?_ before
  intro tail
  rw [(noLead_of_tail tail).2] at lead
  cases lead

theorem broken_behind_no_lead (before : List UInt8) {b : UInt8}
    (none : b = 0xC0 ∨ b = 0xC1 ∨ 0xF5 ≤ b) (after : List UInt8) :
    Broken (before ++ b :: after) := by
  have facts : (¬ b < 0x80 ∧ Unfinished.ofLead? b = .none) ∧ ¬ IsTail b := by
    revert none
    exact forall_byte (by decide +kernel) b
  exact (broken_of_no_lead facts.1.1 facts.1.2 after).behind facts.2 before

theorem broken_of_defect {before bytes : List UInt8} (defect : Defect before bytes) :
    Broken (before ++ bytes) := by
  cases defect with
  | @overlongTwo b after lead =>
    exact broken_behind_no_lead before (or_assoc.mp (Or.inl lead)) after
  | @overlongThree b after low high =>
    refine broken_behind_lead before (b := 0xE0) rfl ?_ after
    rintro ⟨least, -⟩
    exact absurd (UInt8.le_trans least high) (by decide)
  | @overlongFour b after low high =>
    refine broken_behind_lead before (b := 0xF0) rfl ?_ after
    rintro ⟨least, -⟩
    exact absurd (UInt8.le_trans least high) (by decide)
  | @surrogate b after low high =>
    refine broken_behind_lead before (b := 0xED) rfl ?_ after
    rintro ⟨-, most⟩
    exact absurd (UInt8.le_trans low most) (by decide)
  | @tooGreat b after low high =>
    refine broken_behind_lead before (b := 0xF4) rfl ?_ after
    rintro ⟨-, most⟩
    exact absurd (UInt8.le_trans low most) (by decide)
  | @noLead b after low =>
    exact broken_behind_no_lead before (Or.inr (Or.inr low)) after
  | @stray b after tail complete =>
    have alone := broken_of_no_lead (noLead_of_tail tail).1 (noLead_of_tail tail).2 after
    rcases complete with rfl | ⟨front, c, rfl⟩
    · exact alone
    · rw [List.append_assoc]
      exact alone.behind_char front c
  | @cut c part missing after encoded begun short ended =>
    have alone := broken_of_short begun ⟨c, missing, encoded, short⟩ ended
    obtain ⟨b, rest, first, noTail⟩ := exists_first_byte c
    obtain ⟨x, part, rfl⟩ := List.exists_cons_of_ne_nil begun
    obtain ⟨rfl, -⟩ := List.cons.inj (first.symm.trans encoded)
    exact alone.behind noTail before

/-! ## What is not decoded has a defect -/

theorem Defect.prepend {before bytes : List UInt8} (defect : Defect before bytes) (c : Char) :
    Defect (String.utf8EncodeChar c ++ before) bytes := by
  cases defect with
  | overlongTwo lead => exact .overlongTwo lead
  | overlongThree low high => exact .overlongThree low high
  | overlongFour low high => exact .overlongFour low high
  | surrogate low high => exact .surrogate low high
  | tooGreat low high => exact .tooGreat low high
  | noLead low => exact .noLead low
  | stray tail complete =>
    refine .stray tail (Or.inr ?_)
    rcases complete with rfl | ⟨front, d, rfl⟩
    · exact ⟨[], c, by simp⟩
    · exact ⟨String.utf8EncodeChar c ++ front, d, by simp⟩
  | cut encoded begun short ended => exact .cut encoded begun short ended

namespace Unfinished

variable {u : Unfinished} {b : UInt8}

theorem Regular.begins_of_in_range (regular : u.Regular) (range : u.low ≤ b ∧ b ≤ u.high) :
    Begins (u.seen ++ [b]) := by
  cases more : u.more with
  | zero => exact ⟨_, [], by rw [encodeChar_last regular.sound range more, List.append_nil]⟩
  | succ n =>
    obtain ⟨c, rest, encoded, -⟩ := (regular_advance regular range more).beginsShort
    exact ⟨c, rest, encoded.symm⟩

/-- Behind the second byte every tail goes on with the character. -/
theorem Regular.begins_of_tail (regular : u.Regular) (full : u.low = 0x80 ∧ u.high = 0xBF)
    {part missing : List UInt8} {c : Char} (completed : u.Completes (part ++ missing) c)
    (short : missing ≠ []) (tail : IsTail b) : Begins (u.seen ++ part ++ [b]) := by
  induction part generalizing u with
  | nil =>
    rw [List.append_nil]
    apply regular.begins_of_in_range
    rw [full.1, full.2]
    exact tail
  | cons x part ih =>
    obtain ⟨range, later⟩ := completed
    cases more : u.more with
    | zero =>
      simp only [more] at later
      exact absurd (List.append_eq_nil_iff.mp later.1).2 short
    | succ n =>
      simp only [more] at later
      have longer := ih (regular_advance regular range more) ⟨rfl, rfl⟩ later
      simpa [advance] using longer

/-- A tail that cannot follow a leading byte is beyond one of the four narrowed ranges. -/
theorem narrowed (lead : ofLead? b = some u) {next : UInt8} (tail : IsTail next)
    (out : ¬ (u.low ≤ next ∧ next ≤ u.high)) :
    (b = 0xE0 ∧ next ≤ 0x9F) ∨ (b = 0xF0 ∧ next ≤ 0x8F) ∨ (b = 0xED ∧ 0xA0 ≤ next) ∨
      (b = 0xF4 ∧ 0x90 ≤ next) := by
  unfold IsTail at tail
  simp only [UInt8.le_iff_toNat_le] at out
  simp only [UInt8.le_iff_toNat_le, ← UInt8.toNat_inj, UInt8.reduceToNat]
  rcases lead_range lead with ⟨low, high⟩ | ⟨low, high⟩ | ⟨low, high⟩
  · rw [ofLead?_two low high] at lead
    cases lead
    exact absurd tail out
  · rw [ofLead?_three low high] at lead
    cases lead
    simp only [apply_ite UInt8.toNat, UInt8.reduceToNat] at out
    split at out <;> split at out <;> omega
  · rw [ofLead?_four low high] at lead
    cases lead
    simp only [apply_ite UInt8.toNat, UInt8.reduceToNat] at out
    split at out <;> split at out <;> omega

end Unfinished

theorem defect_of_no_lead {b : UInt8} (wide : ¬ b < 0x80) (noLead : Unfinished.ofLead? b = none)
    (after : List UInt8) : Defect [] (b :: after) := by
  have kinds : IsTail b ∨ (b = 0xC0 ∨ b = 0xC1) ∨ 0xF5 ≤ b := by
    revert wide noLead
    exact forall_byte (by decide +kernel) b
  rcases kinds with tail | lead | high
  · exact .stray tail (Or.inl rfl)
  · exact .overlongTwo lead
  · exact .noLead high

theorem defect_of_narrowed {b next : UInt8} {u : Unfinished}
    (lead : Unfinished.ofLead? b = some u) (tail : IsTail next)
    (out : ¬ (u.low ≤ next ∧ next ≤ u.high)) (after : List UInt8) :
    Defect [] (b :: next :: after) := by
  rcases Unfinished.narrowed lead tail out with
    ⟨rfl, high⟩ | ⟨rfl, high⟩ | ⟨rfl, low⟩ | ⟨rfl, low⟩
  · exact .overlongThree tail.1 high
  · exact .overlongFour tail.1 high
  · exact .surrogate low tail.2
  · exact .tooGreat low tail.2

/-- Where a tail does not go on with a character, it follows the leading byte. -/
theorem defect_of_tail {a b : UInt8} {u : Unfinished} {part missing rest : List UInt8} {c : Char}
    (lead : Unfinished.ofLead? a = some u)
    (encoded : String.utf8EncodeChar c = a :: part ++ missing) (short : missing ≠ [])
    (tail : IsTail b) (ends : ¬ Begins (a :: part ++ [b])) :
    Defect [] (a :: part ++ b :: rest) := by
  have regular := Unfinished.regular_ofLead? lead
  have seen := Unfinished.seen_ofLead? lead
  have completed := regular.complete (part ++ missing) c (by rw [encoded, seen]; rfl)
  cases part with
  | nil =>
    refine defect_of_narrowed lead tail ?_ rest
    intro range
    have longer := regular.begins_of_in_range range
    rw [seen] at longer
    exact ends longer
  | cons x part =>
    obtain ⟨range, later⟩ := completed
    cases more : u.more with
    | zero =>
      simp only [more] at later
      exact absurd (List.append_eq_nil_iff.mp later.1).2 short
    | succ n =>
      simp only [more] at later
      have next := Unfinished.regular_advance regular range more
      have longer := next.begins_of_tail ⟨rfl, rfl⟩ later short tail
      simp only [Unfinished.advance, seen] at longer
      exact absurd longer ends

theorem defect_of_maximal {part rest : List UInt8}
    (noChar : ∀ c, ¬ String.utf8EncodeChar c <+: part ++ rest)
    (maximal : MaximalPart part (part ++ rest)) : Defect [] (part ++ rest) := by
  obtain ⟨a, part, rfl⟩ := List.exists_cons_of_ne_nil maximal.some
  by_cases ascii : a < 0x80
  · obtain ⟨c, encoded, -⟩ := split_ascii ascii []
    exact absurd ⟨part ++ rest, by rw [encoded]; rfl⟩ (noChar c)
  cases lead : Unfinished.ofLead? a with
  | none => exact defect_of_no_lead ascii lead (part ++ rest)
  | some u =>
    have begins : Begins (a :: part) := by
      rcases maximal.begins with begins | one
      · exact begins
      · obtain ⟨c, missing, encoded, -⟩ := (Unfinished.regular_ofLead? lead).beginsShort
        obtain rfl := List.length_eq_zero_iff.mp (Nat.succ.inj one)
        exact ⟨c, missing, by rw [encoded, Unfinished.seen_ofLead? lead]⟩
    obtain ⟨c, missing, encoded⟩ := begins
    have short : missing ≠ [] := by
      rintro rfl
      rw [List.append_nil] at encoded
      exact noChar c ⟨rest, by rw [encoded]⟩
    cases rest with
    | nil => exact .cut encoded.symm maximal.some short nofun
    | cons b rest =>
      by_cases tail : IsTail b
      · exact defect_of_tail lead encoded.symm short tail maximal.ends
      · refine .cut encoded.symm maximal.some short ?_
        intro b' first
        cases first
        exact tail

theorem exists_defect_of_broken {bytes : List UInt8} (broken : Broken bytes) :
    ∃ before rest, bytes = before ++ rest ∧ Defect before rest := by
  obtain ⟨part, member⟩ := broken
  have divided := isSplit_split bytes
  generalize split bytes = pieces at divided member
  induction divided with
  | nil => cases member
  | @char c rest pieces later ih =>
    obtain ⟨before, after, rfl, defect⟩ := ih (by simpa using member)
    exact ⟨String.utf8EncodeChar c ++ before, after, by simp, defect.prepend c⟩
  | illFormed noChar maximal later ih =>
    exact ⟨[], _, rfl, defect_of_maximal noChar maximal⟩

/-- Bytes are not decoded exactly if there is a defect at some place. -/
theorem decode?_eq_none_iff_defect {bytes : List UInt8} :
    decode? bytes = none ↔ ∃ before rest, bytes = before ++ rest ∧ Defect before rest := by
  rw [decode?_eq_none_iff_broken]
  constructor
  · exact exists_defect_of_broken
  · rintro ⟨before, rest, rfl, defect⟩
    exact broken_of_defect defect

end ProtocolIdent.Utf8
