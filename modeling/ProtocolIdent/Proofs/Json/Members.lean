import Mathlib.Data.List.Forall2
import ProtocolIdent.Json.IdentMap
import ProtocolIdent.Proofs.Json.Number

/-!
# Objects of numbers by identifier

The grammar of an object whose members are numbers of 32 bits stands by itself, with keys that are
any strings in any spelling and blanks between all tokens. Where all keys are identifiers the
reader takes the object as the insertion of its members in the order of the text
(`identMapOfText_of_object`), the first other key ends it whatever follows
(`identMapOfText_of_refused`), and nothing else is taken (`exists_object_of_identMapOfText`).
-/
namespace ProtocolIdent.Json

/-! ## The grammar -/

/-- A key in any spelling, a colon that may stand between blanks, and the digits of a number of
32 bits. -/
def SpellsMember (key : String) (n : Nat) (cs : List Char) : Prop :=
  ∃ body before after, Spells key.toList body ∧ (∀ c ∈ before, Blank c) ∧ (∀ c ∈ after, Blank c) ∧
    n < 0x100000000 ∧ cs = '"' :: (body ++ '"' :: (before ++ ':' :: (after ++ Nat.toDigits 10 n)))

/-- What stands before a member: blanks, and a comma among them unless the member is the first. -/
inductive Gap : Bool → List Char → Prop
  | first {blanks : List Char} (blank : ∀ c ∈ blanks, Blank c) : Gap true blanks
  | later {before after : List Char} (blankBefore : ∀ c ∈ before, Blank c)
      (blankAfter : ∀ c ∈ after, Blank c) : Gap false (before ++ ',' :: after)

/-- Members with the gaps before them; the flag says whether they are the first of the object. -/
inductive SpellsMembers : Bool → List (String × Nat) → List Char → Prop
  | nil {first : Bool} : SpellsMembers first [] []
  | cons {first : Bool} {key : String} {n : Nat} {entries : List (String × Nat)}
      {gap member more : List Char} (apart : Gap first gap) (spelled : SpellsMember key n member)
      (others : SpellsMembers false entries more) :
      SpellsMembers first ((key, n) :: entries) (gap ++ (member ++ more))

/-- The text is an object with these members in this order. -/
def SpellsObject (entries : List (String × Nat)) (text : String) : Prop :=
  ∃ before members within after, (∀ c ∈ before, Blank c) ∧ SpellsMembers true entries members ∧
    (∀ c ∈ within, Blank c) ∧ (∀ c ∈ after, Blank c) ∧
    text.toList = before ++ '\x7b' :: (members ++ (within ++ '\x7d' :: after))

/-- The text begins an object with these members, then has the key in the place of another, and
then goes on in any way. -/
def ReachesKey (entries : List (String × Nat)) (key : String) (text : String) : Prop :=
  ∃ before members gap body rest, (∀ c ∈ before, Blank c) ∧ SpellsMembers true entries members ∧
    Gap entries.isEmpty gap ∧ Spells key.toList body ∧
    text.toList = before ++ '\x7b' :: (members ++ (gap ++ '"' :: (body ++ '"' :: rest)))

theorem SpellsMembers.reaches {first : Bool} {entries later : List (String × Nat)} {key : String}
    {n : Nat} {cs : List Char} (spelled : SpellsMembers first (entries ++ (key, n) :: later) cs) :
    ∃ members gap body rest, SpellsMembers first entries members ∧
      Gap (first && entries.isEmpty) gap ∧ Spells key.toList body ∧
      cs = members ++ (gap ++ '"' :: (body ++ '"' :: rest)) := by
  induction entries generalizing first cs with
  | nil =>
    rw [List.nil_append] at spelled
    cases spelled with
    | @cons _ _ _ _ gap _ more apart spelled others =>
      obtain ⟨body, before, after, literal, -, -, -, rfl⟩ := spelled
      refine ⟨[], gap, body, before ++ ':' :: (after ++ (Nat.toDigits 10 n ++ more)), .nil,
        by simpa using apart, literal, ?_⟩
      simp
  | cons entry entries ih =>
    cases spelled with
    | cons apart spelled others =>
      obtain ⟨members, gap, body, rest, before, between, literal, rfl⟩ := ih others
      refine ⟨_, gap, body, rest, .cons apart spelled before, by simpa using between, literal, ?_⟩
      simp

/-- Every key of an object is reached behind the members before it. -/
theorem SpellsObject.reachesKey {entries later : List (String × Nat)} {key text : String} {n : Nat}
    (object : SpellsObject (entries ++ (key, n) :: later) text) : ReachesKey entries key text := by
  obtain ⟨before, members, within, after, blank, spelled, -, -, shape⟩ := object
  obtain ⟨front, gap, body, rest, first, apart, literal, rfl⟩ := spelled.reaches
  refine ⟨before, front, gap, body, rest ++ (within ++ '\x7d' :: after), blank, first,
    by simpa using apart, literal, ?_⟩
  rw [shape]
  simp

/-! ## Where numbers end -/

theorem endsNumber_of_blank {blanks rest : List Char} (blank : ∀ c ∈ blanks, Blank c)
    (stop : EndsNumber rest) : EndsNumber (blanks ++ rest) := by
  cases blanks with
  | nil => exact stop
  | cons b blanks =>
    have all : ∀ c ∈ [' ', '\n', '\t', '\r'],
        c.isDigit = false ∧ c ≠ '.' ∧ c ≠ 'e' ∧ c ≠ 'E' := by simp
    intro c first
    cases first
    exact all b (blank b List.mem_cons_self)

theorem endsNumber_comma (rest : List Char) : EndsNumber (',' :: rest) := by
  simp [EndsNumber]

theorem endsNumber_brace (rest : List Char) : EndsNumber ('\x7d' :: rest) := by
  simp [EndsNumber]

theorem Gap.endsNumber {gap : List Char} (apart : Gap false gap) (rest : List Char) :
    EndsNumber (gap ++ rest) := by
  cases apart with
  | later blankBefore blankAfter =>
    rw [List.append_assoc]
    exact endsNumber_of_blank blankBefore (endsNumber_comma _)

theorem SpellsMembers.endsNumber {entries : List (String × Nat)} {cs rest : List Char}
    (spelled : SpellsMembers false entries cs) (stop : EndsNumber rest) :
    EndsNumber (cs ++ rest) := by
  cases spelled with
  | nil => exact stop
  | cons apart first others =>
    rw [List.append_assoc]
    exact apart.endsNumber _

theorem not_blank_of_isDigit {c : Char} (digit : c.isDigit = true) : ¬ Blank c := by
  intro blank
  have all : ∀ b ∈ [' ', '\n', '\t', '\r'], b.isDigit = false := by simp
  rw [all c blank] at digit
  cases digit

/-! ## Members -/

theorem word32OfToken_eq_ok_iff {token : Token} {n : Nat} :
    word32OfToken token = .ok n ↔ token = .number (.whole n) ∧ n < 0x100000000 := by
  constructor
  · intro read
    unfold word32OfToken at read
    split at read
    · rename_i k
      split at read
      · rename_i inside
        have same := Except.ok.inj read
        have small : n < 0x100000000 := by omega
        have whole : k = n := by omega
        rw [whole]
        exact ⟨rfl, small⟩
      · cases read
    · cases read
  · rintro ⟨rfl, small⟩
    have inside : 0 ≤ (n : Int) ∧ (n : Int) < 0x100000000 := by omega
    rw [word32OfToken, if_pos inside, Int.toNat_natCast]

theorem skipBlanks_append_iff {cs rest : List Char} {c : Char} (noBlank : ¬ Blank c) :
    skipBlanks cs = c :: rest ↔ ∃ blanks, (∀ b ∈ blanks, Blank b) ∧ cs = blanks ++ c :: rest := by
  constructor
  · intro skipped
    obtain ⟨blanks, blank, split⟩ := eq_append_skipBlanks cs
    rw [skipped] at split
    exact ⟨blanks, blank, split⟩
  · rintro ⟨blanks, blank, rfl⟩
    exact skipBlanks_append_cons blank noBlank

/-- The token stays a variable here: the range check of a number is not to be computed. -/
theorem readCount_colon {before after left rest : List Char} {c : Char} {token : Token}
    (blankBefore : ∀ b ∈ before, Blank b) (blankAfter : ∀ b ∈ after, Blank b) (noBlank : ¬ Blank c)
    (opening : readToken (c :: left) = .ok (token, rest)) :
    readCount (before ++ ':' :: (after ++ c :: left)) =
      ((word32OfToken token).mapError .data).map fun n => (n, rest) := by
  simp only [readCount, skipBlanks_append_cons blankBefore (by decide : ¬ Blank ':'),
    skipBlanks_append_cons blankAfter noBlank, opening]
  cases word32OfToken token with
  | error e => rfl
  | ok n => rfl

/-- A count is a colon and the digits of a number of 32 bits, maybe after blanks. -/
theorem readCount_eq_ok_iff {cs rest : List Char} {n : Nat} :
    readCount cs = .ok (n, rest) ↔
      ∃ before after, (∀ c ∈ before, Blank c) ∧ (∀ c ∈ after, Blank c) ∧ n < 0x100000000 ∧
        EndsNumber rest ∧ cs = before ++ ':' :: (after ++ (Nat.toDigits 10 n ++ rest)) := by
  constructor
  · intro read
    unfold readCount at read
    split at read
    · rename_i left colon
      obtain ⟨before, blankBefore, rfl⟩ := (skipBlanks_append_iff (by decide)).mp colon
      obtain ⟨after, blankAfter, split⟩ := eq_append_skipBlanks left
      split at read
      · rename_i token left opening
        split at read
        · rename_i found count
          cases read
          obtain ⟨rfl, small⟩ := word32OfToken_eq_ok_iff.mp count
          obtain ⟨-, stop, shape⟩ := readToken_eq_whole_iff.mp opening
          rw [shape] at split
          exact ⟨before, after, blankBefore, blankAfter, small, stop, by rw [← split]⟩
        · cases read
      · cases read
    · cases read
    · cases read
  · rintro ⟨before, after, blankBefore, blankAfter, small, stop, rfl⟩
    obtain ⟨d, front, spelled, digits⟩ := Digits.exists_first_digit n
    have large : n < UInt64.size := by
      unfold UInt64.size
      omega
    have opening := readToken_eq_whole_iff.mpr ⟨large, stop, rfl⟩
    have noBlank := not_blank_of_isDigit (digits d List.mem_cons_self)
    have count := word32OfToken_eq_ok_iff.mpr ⟨rfl, small⟩
    rw [spelled, List.cons_append] at opening ⊢
    rw [readCount_colon blankBefore blankAfter noBlank opening, count]
    rfl

/-- A member is read exactly if it is spelled and its key is an identifier. -/
theorem readMember_eq_ok_iff {cs rest : List Char} {id : Ident} {n : Nat} :
    readMember cs = .ok ((id, n), rest) ↔
      ∃ key member, SpellsMember key n member ∧ Ident.ofText key = .ok id ∧ EndsNumber rest ∧
        cs = member ++ rest := by
  constructor
  · intro read
    unfold readMember at read
    split at read
    · split at read
      · rename_i key left literal
        split at read
        · rename_i accepted
          split at read
          · rename_i count
            cases read
            obtain ⟨body, spelled, rfl⟩ := readString_eq_ok_iff.mp literal
            obtain ⟨before, after, blankBefore, blankAfter, small, stop, rfl⟩ :=
              readCount_eq_ok_iff.mp count
            refine ⟨key, _, ⟨body, before, after, spelled, blankBefore, blankAfter, small, rfl⟩,
              identOfString_eq_ok_iff.mp accepted, stop, by simp⟩
          · cases read
        · cases read
      · cases read
    · cases read
    · cases read
  · rintro ⟨key, member, ⟨body, before, after, spelled, blankBefore, blankAfter, small, rfl⟩,
      accepted, stop, rfl⟩
    have count := readCount_eq_ok_iff.mpr ⟨before, after, blankBefore, blankAfter, small, stop, rfl⟩
    have literal : ∀ left, readString [] (body ++ '"' :: left) = .ok (key, left) :=
      fun left => readString_eq_ok_iff.mpr ⟨body, spelled, rfl⟩
    simp only [readMember, List.cons_append, List.append_assoc, literal,
      identOfString_of_ok accepted, count]

/-- A key that is no identifier is the error, whatever stands behind it. -/
theorem readMember_of_refused {key : String} {body : List Char} (spelled : Spells key.toList body)
    (refused : ∀ id, Ident.ofText key ≠ .ok id) (rest : List Char) :
    readMember ('"' :: (body ++ '"' :: rest)) = .error (.data (.ident (.malformed key))) := by
  have literal : readString [] (body ++ '"' :: rest) = .ok (key, rest) :=
    readString_eq_ok_iff.mpr ⟨body, spelled, rfl⟩
  simp only [readMember, literal, identOfString_of_error refused]

/-! ## Members in a row -/

/-- The entry that a member is read as. -/
def ReadsEntry (entry : String × Nat) (pair : Ident × Nat) : Prop :=
  Ident.ofText entry.1 = .ok pair.1 ∧ entry.2 = pair.2

/-- A gap is passed over, and the member behind it is read. -/
theorem readMoreEntries_gap {gap : List Char} (apart : Gap false gap) (n : Nat) (m : IdentMap)
    (left : List Char) :
    readMoreEntries (n + 1) m (gap ++ '"' :: left) =
      (readMember ('"' :: left)).bind fun (entry, rest) =>
        readMoreEntries n (m.insert entry.1 entry.2) rest := by
  cases apart with
  | later blankBefore blankAfter =>
    rw [List.append_assoc, readMoreEntries, List.cons_append,
      skipBlanks_append_cons blankBefore (by decide)]
    simp only [skipBlanks_append_cons blankAfter (by decide : ¬ Blank '"')]
    cases readMember ('"' :: left) with
    | error e => rfl
    | ok taken => rfl

theorem readEntries_gap {gap : List Char} (apart : Gap true gap) (left : List Char) :
    readEntries (gap ++ '"' :: left) =
      (readMember ('"' :: left)).bind fun (entry, rest) =>
        readMoreEntries (rest.length + 1) ((∅ : IdentMap).insert entry.1 entry.2) rest := by
  cases apart with
  | first blank =>
    rw [readEntries, skipBlanks_append_cons blank (by decide)]
    split
    · rename_i brace
      exact absurd (List.cons.inj brace).1 (by decide)
    · cases readMember ('"' :: left) with
      | error e => rfl
      | ok taken => rfl

theorem readMoreEntries_close {within : List Char} (blank : ∀ c ∈ within, Blank c) (n : Nat)
    (m : IdentMap) (rest : List Char) :
    readMoreEntries (n + 1) m (within ++ '\x7d' :: rest) = .ok (m, rest) := by
  rw [readMoreEntries, skipBlanks_append_cons blank (by decide)]
  rfl

theorem readEntries_close {within : List Char} (blank : ∀ c ∈ within, Blank c) (rest : List Char) :
    readEntries (within ++ '\x7d' :: rest) = .ok (∅, rest) := by
  rw [readEntries, skipBlanks_append_cons blank (by decide)]
  rfl

theorem SpellsMember.read {key : String} {n : Nat} {member : List Char} {id : Ident}
    (spelled : SpellsMember key n member) (accepted : Ident.ofText key = .ok id)
    {rest : List Char} (stop : EndsNumber rest) :
    ∃ left, member ++ rest = '"' :: left ∧ readMember ('"' :: left) = .ok ((id, n), rest) := by
  have read := readMember_eq_ok_iff.mpr ⟨key, member, spelled, accepted, stop, rfl⟩
  obtain ⟨body, before, after, -, -, -, -, rfl⟩ := spelled
  exact ⟨_, rfl, read⟩

/-- Members are inserted in the order of the text, each in a round of its own. -/
theorem readMoreEntries_members {entries : List (String × Nat)} {pairs : List (Ident × Nat)}
    {cs rest : List Char} (spelled : SpellsMembers false entries cs)
    (read : List.Forall₂ ReadsEntry entries pairs) (stop : EndsNumber rest) (k : Nat)
    (m : IdentMap) :
    readMoreEntries (entries.length + k) m (cs ++ rest) =
      readMoreEntries k (m.insertMany pairs) rest := by
  -- the map is general, as each member is inserted before the next one is read
  induction read generalizing m cs with
  | nil =>
    cases spelled
    simp
  | @cons entry pair entries pairs reads _ ih =>
    cases spelled with
    | @cons _ key n _ gap member more apart first others =>
      obtain ⟨id, count⟩ := pair
      obtain ⟨accepted, rfl⟩ : Ident.ofText key = .ok id ∧ n = count := reads
      obtain ⟨left, shape, taken⟩ := first.read accepted (others.endsNumber stop)
      have rounds : ((key, n) :: entries).length + k = (entries.length + k) + 1 := by
        rw [List.length_cons]
        omega
      rw [List.append_assoc, List.append_assoc, shape, rounds, readMoreEntries_gap apart, taken]
      dsimp only [Except.bind]
      rw [ih others, Std.TreeMap.insertMany_cons]

theorem SpellsMembers.length_le {first : Bool} {entries : List (String × Nat)} {cs : List Char}
    (spelled : SpellsMembers first entries cs) : entries.length ≤ cs.length := by
  induction spelled with
  | nil => exact Nat.le_refl 0
  | cons apart first others ih =>
    obtain ⟨body, before, after, -, -, -, -, rfl⟩ := first
    simp only [List.length_cons, List.length_append]
    omega

/-- The rounds suffice for the members of the text, and one is left. -/
theorem readEntries_members {entry : String × Nat} {entries : List (String × Nat)}
    {pairs : List (Ident × Nat)} {cs rest : List Char}
    (spelled : SpellsMembers true (entry :: entries) cs)
    (read : List.Forall₂ ReadsEntry (entry :: entries) pairs) (stop : EndsNumber rest) :
    ∃ k, readEntries (cs ++ rest) = readMoreEntries (k + 1) (Std.TreeMap.ofList pairs) rest := by
  cases spelled with
  | @cons _ key n _ gap member more apart first others =>
    cases read with
    | @cons _ pair _ pairs reads later =>
      obtain ⟨id, count⟩ := pair
      obtain ⟨accepted, rfl⟩ : Ident.ofText key = .ok id ∧ n = count := reads
      obtain ⟨left, shape, taken⟩ := first.read accepted (others.endsNumber stop)
      have few := others.length_le
      obtain ⟨k, rounds⟩ : ∃ k, (more ++ rest).length + 1 = entries.length + (k + 1) := by
        refine ⟨(more ++ rest).length - entries.length, ?_⟩
        rw [List.length_append]
        omega
      refine ⟨k, ?_⟩
      rw [List.append_assoc, List.append_assoc, shape, readEntries_gap apart, taken]
      dsimp only [Except.bind]
      rw [rounds, readMoreEntries_members others later stop, Std.TreeMap.ofList_cons]

/-! ## Documents -/

theorem identMapOfText_of_entries {before cs : List Char} {text : String}
    (blank : ∀ c ∈ before, Blank c) (shape : text.toList = before ++ '\x7b' :: cs) :
    identMapOfText text =
      match readEntries cs with
      | .ok (m, rest) => (expectEnd rest).map fun _ => m
      | .error e => .error e := by
  rw [identMapOfText, shape, skipBlanks_append_cons blank (by decide)]
  rfl

/-- Where all keys are identifiers, the members are inserted in the order of the text. -/
theorem identMapOfText_of_object {entries : List (String × Nat)} {pairs : List (Ident × Nat)}
    {text : String} (object : SpellsObject entries text)
    (read : List.Forall₂ ReadsEntry entries pairs) :
    identMapOfText text = .ok (Std.TreeMap.ofList pairs) := by
  obtain ⟨before, members, within, after, blankBefore, spelled, blankWithin, blankAfter, shape⟩ :=
    object
  have closed : readEntries (members ++ (within ++ '\x7d' :: after)) =
      .ok (Std.TreeMap.ofList pairs, after) := by
    cases entries with
    | nil =>
      cases spelled
      cases read
      exact readEntries_close blankWithin after
    | cons entry entries =>
      have stop := endsNumber_of_blank blankWithin (endsNumber_brace after)
      obtain ⟨k, inserted⟩ := readEntries_members spelled read stop
      rw [inserted, readMoreEntries_close blankWithin]
  rw [identMapOfText_of_entries blankBefore shape, closed]
  dsimp only
  rw [expectEnd_of_blank blankAfter]
  rfl

/-- The first key that is no identifier is the error, whatever stands behind it. -/
theorem identMapOfText_of_refused {entries : List (String × Nat)} {pairs : List (Ident × Nat)}
    {key text : String} (reaches : ReachesKey entries key text)
    (read : List.Forall₂ ReadsEntry entries pairs) (refused : ∀ id, Ident.ofText key ≠ .ok id) :
    identMapOfText text = .error (.data (.ident (.malformed key))) := by
  obtain ⟨before, members, gap, body, rest, blank, spelled, apart, literal, shape⟩ := reaches
  have stopped := readMember_of_refused literal refused rest
  have failed : readEntries (members ++ (gap ++ '"' :: (body ++ '"' :: rest))) =
      .error (.data (.ident (.malformed key))) := by
    cases entries with
    | nil =>
      cases spelled
      rw [List.nil_append, readEntries_gap apart, stopped]
      rfl
    | cons entry entries =>
      obtain ⟨k, inserted⟩ := readEntries_members spelled read (apart.endsNumber _)
      rw [inserted, readMoreEntries_gap apart, stopped]
      rfl
  rw [identMapOfText_of_entries blank shape, failed]

/-! ## Nothing else is taken -/

theorem exists_members_of_readMoreEntries {k : Nat} {m found : IdentMap} {cs rest : List Char}
    (read : readMoreEntries k m cs = .ok (found, rest)) :
    ∃ entries members within, SpellsMembers false entries members ∧ (∀ c ∈ within, Blank c) ∧
      cs = members ++ (within ++ '\x7d' :: rest) := by
  induction k generalizing m cs with
  | zero =>
    rw [readMoreEntries] at read
    cases read
  | succ k ih =>
    rw [readMoreEntries] at read
    split at read
    · rename_i left brace
      cases read
      obtain ⟨within, blank, rfl⟩ := (skipBlanks_append_iff (by decide)).mp brace
      exact ⟨[], [], within, .nil, blank, rfl⟩
    · rename_i behind comma
      split at read
      · rename_i id n left taken
        obtain ⟨before, blankBefore, rfl⟩ := (skipBlanks_append_iff (by decide)).mp comma
        obtain ⟨key, member, spelled, -, -, shape⟩ := readMember_eq_ok_iff.mp taken
        obtain ⟨after, blankAfter, split⟩ := eq_append_skipBlanks behind
        obtain ⟨entries, members, within, others, blank, rfl⟩ := ih read
        rw [shape] at split
        refine ⟨(key, n) :: entries, _, within,
          .cons (.later blankBefore blankAfter) spelled others, blank, ?_⟩
        simp [split]
      · cases read
    · cases read
    · cases read

theorem exists_members_of_readEntries {found : IdentMap} {cs rest : List Char}
    (read : readEntries cs = .ok (found, rest)) :
    ∃ entries members within, SpellsMembers true entries members ∧ (∀ c ∈ within, Blank c) ∧
      cs = members ++ (within ++ '\x7d' :: rest) := by
  unfold readEntries at read
  split at read
  · rename_i left brace
    cases read
    obtain ⟨within, blank, rfl⟩ := (skipBlanks_append_iff (by decide)).mp brace
    exact ⟨[], [], within, .nil, blank, rfl⟩
  · split at read
    · rename_i id n left taken
      obtain ⟨key, member, spelled, -, -, shape⟩ := readMember_eq_ok_iff.mp taken
      obtain ⟨blanks, blankBefore, split⟩ := eq_append_skipBlanks cs
      obtain ⟨entries, members, within, others, blank, rfl⟩ :=
        exists_members_of_readMoreEntries read
      rw [shape] at split
      refine ⟨(key, n) :: entries, _, within, .cons (.first blankBefore) spelled others, blank, ?_⟩
      simp [split]
    · cases read

theorem eq_brace_of_readToken {cs rest : List Char}
    (opening : readToken cs = .ok (.openObject, rest)) : cs = '\x7b' :: rest := by
  unfold readToken at opening
  split at opening
  case h_1 => cases opening
  case h_3 => cases opening
  case h_4 =>
    cases opening
    rfl
  case h_8 =>
    split at opening
    · obtain ⟨_, -, same⟩ := exists_of_map_eq_ok opening
      cases same
    · cases opening
  all_goals
    obtain ⟨_, -, same⟩ := exists_of_map_eq_ok opening
    cases same

/-- A text that is taken is an object of numbers. -/
theorem exists_object_of_identMapOfText {text : String} {found : IdentMap}
    (read : identMapOfText text = .ok found) : ∃ entries, SpellsObject entries text := by
  unfold identMapOfText at read
  split at read
  · cases read
  · rename_i left opening
    split at read
    · rename_i m rest inside
      obtain ⟨_, ended, -⟩ := exists_of_map_eq_ok read
      obtain ⟨entries, members, within, spelled, blank, rfl⟩ :=
        exists_members_of_readEntries inside
      obtain ⟨before, blankBefore, split⟩ := eq_append_skipBlanks text.toList
      rw [eq_brace_of_readToken opening] at split
      refine ⟨entries, before, members, within, rest, blankBefore, spelled, blank, ?_, split⟩
      by_contra more
      rw [expectEnd_of_not_blank more] at ended
      cases ended
    · cases read
  · cases read

end ProtocolIdent.Json
