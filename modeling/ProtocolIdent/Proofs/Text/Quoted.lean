import ProtocolIdent.Proofs.Digits
import ProtocolIdent.Text.Quoted

/-!
# Quoted text tells where it ends

No character between the quotes is written as the beginning of what another one is written as
(`quoteChar_append_inj`), and none begins with a quote. So of a message that goes on behind a
quoted text, both the text and what follows it can be told (`quote_append_inj`), whatever escapes,
quotes or backslashes the text itself holds. Nothing in a quoted text is a control character
(`not_isControl_of_mem_quote`).
-/
namespace ProtocolIdent.Text

/-- The control characters of ASCII. -/
def IsControl (c : Char) : Prop :=
  c.toNat < 0x20 ∨ c.toNat = 0x7F

instance (c : Char) : Decidable (IsControl c) :=
  inferInstanceAs (Decidable (_ ∨ _))

/-! ## How a character is written -/

/-- The short escapes and their letters. -/
def shortEscapes : List (Char × Char) :=
  [('\x00', '0'), ('\t', 't'), ('\n', 'n'), ('\r', 'r'), ('"', '"'), ('\\', '\\')]

theorem mem_shortEscapes {c letter : Char} (short : shortEscape? c = some letter) :
    (c, letter) ∈ shortEscapes := by
  unfold shortEscape? at short
  split at short <;> cases short <;> decide

/-- A character is written as a short escape, as itself, or by its number. -/
theorem quoteChar_cases (c : Char) :
    (∃ letter, shortEscape? c = some letter ∧ quoteChar c = ['\\', letter]) ∨
      (shortEscape? c = none ∧ isPrintable c = true ∧ quoteChar c = [c]) ∨
      quoteChar c = '\\' :: 'u' :: '\x7b' :: (Nat.toDigits 16 c.toNat ++ ['\x7d']) := by
  unfold quoteChar
  cases short : shortEscape? c with
  | some letter => exact .inl ⟨letter, rfl, rfl⟩
  | none =>
    by_cases printable : isPrintable c = true
    · exact .inr (.inl ⟨rfl, printable, if_pos printable⟩)
    · exact .inr (.inr (if_neg printable))

theorem shortEscape?_inj {c d letter : Char} (first : shortEscape? c = some letter)
    (second : shortEscape? d = some letter) : c = d := by
  have letters : ∀ p ∈ shortEscapes, ∀ q ∈ shortEscapes, p.2 = q.2 → p.1 = q.1 := by decide
  exact letters _ (mem_shortEscapes first) _ (mem_shortEscapes second) rfl

/-- No short escape has the letter of the escapes by number. -/
theorem shortEscape?_ne_u (c : Char) : shortEscape? c ≠ some 'u' := by
  have letters : ∀ p ∈ shortEscapes, p.2 ≠ 'u' := by decide
  exact fun short => letters _ (mem_shortEscapes short) rfl

/-- The characters that a written text is marked with do not stand for themselves. -/
theorem ne_mark_of_shortEscape? {c : Char} (plain : shortEscape? c = none) :
    c ≠ '\\' ∧ c ≠ '"' := by
  constructor <;> rintro rfl <;> cases plain

theorem number_stops : ∀ d < 16, '\x7d' ≠ Nat.digitChar d := by
  decide

/-! ## Where a written character ends -/

theorem quoteChar_append_inj {c d : Char} {xs ys : List Char} :
    quoteChar c ++ xs = quoteChar d ++ ys ↔ c = d ∧ xs = ys := by
  refine ⟨fun same => ?_, fun ⟨first, rest⟩ => by rw [first, rest]⟩
  -- of a short escape, a character itself and a number, both sides are the same kind
  rcases quoteChar_cases c with ⟨l, shortC, writtenC⟩ | ⟨plainC, -, writtenC⟩ | writtenC <;>
    rcases quoteChar_cases d with ⟨m, shortD, writtenD⟩ | ⟨plainD, -, writtenD⟩ | writtenD <;>
    rw [writtenC, writtenD] at same <;>
    simp only [List.cons_append, List.nil_append, List.append_assoc, List.cons.injEq] at same
  · obtain ⟨-, rfl, rest⟩ := same
    exact ⟨shortEscape?_inj shortC shortD, rest⟩
  · exact absurd same.1.symm (ne_mark_of_shortEscape? plainD).1
  · obtain ⟨-, rfl, -⟩ := same
    exact absurd shortC (shortEscape?_ne_u c)
  · exact absurd same.1 (ne_mark_of_shortEscape? plainC).1
  · exact same
  · exact absurd same.1 (ne_mark_of_shortEscape? plainC).1
  · obtain ⟨-, rfl, -⟩ := same
    exact absurd shortD (shortEscape?_ne_u d)
  · exact absurd same.1.symm (ne_mark_of_shortEscape? plainD).1
  · have numbers := (Digits.toDigits_append_cons_inj (by decide) (by decide) number_stops).mp
      same.2.2.2
    exact ⟨Char.toNat_inj.mp numbers.1, numbers.2⟩

/-- What a character is written as does not begin with a quote. -/
theorem quoteChar_append_ne (c : Char) (xs ys : List Char) : quoteChar c ++ xs ≠ '"' :: ys := by
  intro same
  rcases quoteChar_cases c with ⟨l, -, written⟩ | ⟨plain, -, written⟩ | written <;>
    rw [written] at same
  · exact absurd (List.cons.inj same).1 (by decide)
  · exact (ne_mark_of_shortEscape? plain).2 (List.cons.inj same).1
  · exact absurd (List.cons.inj same).1 (by decide)

/-! ## Where a quoted text ends -/

/-- Up to the closing quote a text determines the characters that were written. -/
theorem flatMap_quoteChar_inj {s t xs ys : List Char} :
    s.flatMap quoteChar ++ '"' :: xs = t.flatMap quoteChar ++ '"' :: ys ↔ s = t ∧ xs = ys := by
  refine ⟨fun same => ?_, fun ⟨first, rest⟩ => by rw [first, rest]⟩
  induction s generalizing t with
  | nil =>
    cases t with
    | nil => exact ⟨rfl, (List.cons.inj same).2⟩
    | cons d t =>
      rw [List.flatMap_cons, List.append_assoc] at same
      exact absurd same.symm (quoteChar_append_ne d _ _)
  | cons c s ih =>
    cases t with
    | nil =>
      rw [List.flatMap_cons, List.append_assoc] at same
      exact absurd same (quoteChar_append_ne c _ _)
    | cons d t =>
      rw [List.flatMap_cons, List.flatMap_cons, List.append_assoc, List.append_assoc,
        quoteChar_append_inj] at same
      obtain ⟨rfl, later⟩ := same
      obtain ⟨rfl, rest⟩ := ih later
      exact ⟨rfl, rest⟩

theorem toList_quote (s : String) :
    (quote s).toList = '"' :: (s.toList.flatMap quoteChar ++ ['"']) := by
  simp [quote]

theorem quote_append_inj {s t u v : String} : quote s ++ u = quote t ++ v ↔ s = t ∧ u = v := by
  rw [← String.toList_inj]
  simp only [String.toList_append, toList_quote, List.cons_append, List.append_assoc,
    List.nil_append, List.cons.injEq, true_and, flatMap_quoteChar_inj, String.toList_inj]

theorem quote_inj {s t : String} : quote s = quote t ↔ s = t := by
  have both := quote_append_inj (s := s) (t := t) (u := "") (v := "")
  rwa [String.append_empty, String.append_empty, and_iff_left rfl] at both

/-! ## What a quoted text may hold -/

/-- A fixed text is checked character by character. -/
theorem not_isControl_of_all {cs : List Char} (checked : cs.all (¬ IsControl ·) = true) {c : Char}
    (member : c ∈ cs) : ¬ IsControl c := by
  simpa using List.all_eq_true.mp checked c member

theorem not_isControl_of_isPrintable {c : Char} (printable : isPrintable c = true) :
    ¬ IsControl c := by
  unfold IsControl
  by_cases ascii : c.toNat < 0x80
  · have range := (isPrintable_ascii ascii).mp printable
    omega
  · omega

theorem not_isControl_digitChar : ∀ d < 16, ¬ IsControl (Nat.digitChar d) := by
  decide

theorem not_isControl_of_mem_toDigits {b n : Nat} {c : Char} (base : 1 < b) (most : b ≤ 16)
    (member : c ∈ Nat.toDigits b n) : ¬ IsControl c := by
  obtain ⟨d, small, rfl⟩ := Digits.mem_toDigits base member
  exact not_isControl_digitChar d (by omega)

theorem not_isControl_of_mem_quoteChar {c x : Char} (member : x ∈ quoteChar c) :
    ¬ IsControl x := by
  rcases quoteChar_cases c with ⟨l, short, written⟩ | ⟨-, printable, written⟩ | written <;>
    rw [written] at member
  · have letters : ∀ p ∈ shortEscapes, ¬ IsControl p.2 := by decide
    have letter := letters _ (mem_shortEscapes short)
    simp only [List.mem_cons, List.not_mem_nil, or_false] at member
    rcases member with rfl | rfl
    · decide
    · exact letter
  · rw [List.mem_singleton.mp member]
    exact not_isControl_of_isPrintable printable
  · simp only [List.mem_cons, List.mem_append, List.not_mem_nil, or_false] at member
    rcases member with rfl | rfl | rfl | digit | rfl
    · decide
    · decide
    · decide
    · exact not_isControl_of_mem_toDigits (by decide) (by decide) digit
    · decide

theorem not_isControl_of_mem_quote {s : String} {x : Char} (member : x ∈ (quote s).toList) :
    ¬ IsControl x := by
  rw [toList_quote, List.mem_cons, List.mem_append, List.mem_singleton, List.mem_flatMap] at member
  rcases member with rfl | ⟨c, -, inside⟩ | rfl
  · decide
  · exact not_isControl_of_mem_quoteChar inside
  · decide

end ProtocolIdent.Text
