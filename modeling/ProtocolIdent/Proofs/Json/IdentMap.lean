import ProtocolIdent.Proofs.Ident.Order
import ProtocolIdent.Proofs.Json.Members
import ProtocolIdent.Proofs.Traversal

/-!
# Maps by identifier and their texts

Of the members of an object whose keys are read as one identifier the last is kept, so the map is
determined by the members, whatever order and case their keys have. A map is written in ascending
order and read back as it was (`identMap_keeps_last_entries`).
-/
namespace ProtocolIdent

namespace IdentMap

/-! ## Last entries -/

/-- The last entry whose key is read as the identifier has this number. -/
def LastEntry (entries : List (String × Nat)) (id : Ident) (n : Nat) : Prop :=
  ∃ before key after, entries = before ++ (key, n) :: after ∧ Ident.ofText key = .ok id ∧
    ∀ entry ∈ after, Ident.ofText entry.1 ≠ .ok id

theorem lastEntry_cons_iff {entry : String × Nat} {entries : List (String × Nat)} {id : Ident}
    {n : Nat} :
    LastEntry (entry :: entries) id n ↔ LastEntry entries id n ∨
      Ident.ofText entry.1 = .ok id ∧ entry.2 = n ∧
        ∀ other ∈ entries, Ident.ofText other.1 ≠ .ok id := by
  constructor
  · rintro ⟨before, key, after, shape, reads, last⟩
    cases before with
    | nil =>
      cases shape
      exact Or.inr ⟨reads, rfl, last⟩
    | cons first before =>
      cases shape
      exact Or.inl ⟨before, key, after, rfl, reads, last⟩
  · rintro (⟨before, key, after, rfl, reads, last⟩ | ⟨reads, rfl, last⟩)
    · exact ⟨entry :: before, key, after, rfl, reads, last⟩
    · exact ⟨[], entry.1, entries, rfl, reads, last⟩

theorem LastEntry.exists_mem {entries : List (String × Nat)} {id : Ident} {n : Nat}
    (last : LastEntry entries id n) : ∃ key, (key, n) ∈ entries ∧ Ident.ofText key = .ok id := by
  obtain ⟨before, key, after, rfl, reads, -⟩ := last
  exact ⟨key, by simp, reads⟩

theorem exists_lastEntry {entries : List (String × Nat)} {id : Ident}
    (read : ∃ entry ∈ entries, Ident.ofText entry.1 = .ok id) : ∃ n, LastEntry entries id n := by
  induction entries with
  | nil => simp at read
  | cons entry entries ih =>
    by_cases later : ∃ other ∈ entries, Ident.ofText other.1 = .ok id
    · obtain ⟨n, last⟩ := ih later
      exact ⟨n, lastEntry_cons_iff.mpr (Or.inl last)⟩
    · obtain ⟨found, listed, reads⟩ := read
      rcases List.mem_cons.mp listed with rfl | listed
      · exact ⟨found.2, lastEntry_cons_iff.mpr
          (Or.inr ⟨reads, rfl, fun other member same => later ⟨other, member, same⟩⟩)⟩
      · exact absurd ⟨found, listed, reads⟩ later

theorem mem_toList_insert_iff {m : IdentMap} {key id : Ident} {k n : Nat} :
    (id, n) ∈ (m.insert key k).toList ↔
      key = id ∧ k = n ∨ key ≠ id ∧ (id, n) ∈ m.toList := by
  rw [Std.TreeMap.mem_toList_iff_getElem?_eq_some, Std.TreeMap.getElem?_insert,
    Std.TreeMap.mem_toList_iff_getElem?_eq_some]
  by_cases same : key = id
  · simp [same]
  · simp [same]

/-- Insertion keeps the last entry of each identifier, and what the map held of others. -/
theorem mem_toList_insertMany_iff {entries : List (String × Nat)} {pairs : List (Ident × Nat)}
    (read : List.Forall₂ Json.ReadsEntry entries pairs) {m : IdentMap} {id : Ident} {n : Nat} :
    (id, n) ∈ (m.insertMany pairs).toList ↔ LastEntry entries id n ∨
      (∀ entry ∈ entries, Ident.ofText entry.1 ≠ .ok id) ∧ (id, n) ∈ m.toList := by
  induction read generalizing m with
  | nil => simp [LastEntry]
  | @cons entry pair entries pairs reads _ ih =>
    obtain ⟨key, k⟩ := pair
    obtain ⟨accepted, same⟩ : Ident.ofText entry.1 = .ok key ∧ entry.2 = k := reads
    have alike : Ident.ofText entry.1 = .ok id ↔ key = id := by
      rw [accepted, Except.ok.injEq]
    rw [Std.TreeMap.insertMany_cons, ih, mem_toList_insert_iff, lastEntry_cons_iff,
      List.forall_mem_cons, same, Ne, alike]
    tauto

theorem mem_toList_ofList_iff {entries : List (String × Nat)} {pairs : List (Ident × Nat)}
    (read : List.Forall₂ Json.ReadsEntry entries pairs) {id : Ident} {n : Nat} :
    (id, n) ∈ (Std.TreeMap.ofList pairs : IdentMap).toList ↔ LastEntry entries id n := by
  rw [Std.TreeMap.ofList_eq_insertMany_empty, mem_toList_insertMany_iff read]
  simp

/-! ## Last indices -/

theorem lastIndices_concat (ids : List Ident) (id : Ident) :
    lastIndices (ids ++ [id]) = (lastIndices ids).insert id ids.length := by
  simp [lastIndices, List.zipIdx_append]

theorem getElem?_concat_eq_some_iff {ids : List Ident} {id new : Ident} {i : Nat} :
    (ids ++ [new])[i]? = some id ↔ ids[i]? = some id ∨ i = ids.length ∧ new = id := by
  rcases Nat.lt_trichotomy i ids.length with inside | rfl | beyond
  · rw [List.getElem?_append_left inside]
    have other : i ≠ ids.length := by omega
    simp [other]
  · simp
  · have none : ids[i]? = none := List.getElem?_eq_none (by omega)
    have other : i ≠ ids.length := by omega
    rw [List.getElem?_eq_none (by simp; omega), none]
    simp [other]

/-- The last place of an identifier is the new one, if it is the new member. -/
theorem last_place_concat_iff {ids : List Ident} {id new : Ident} {i : Nat} :
    ((ids ++ [new])[i]? = some id ∧ ∀ j, i < j → (ids ++ [new])[j]? ≠ some id) ↔
      new = id ∧ ids.length = i ∨
        new ≠ id ∧ ids[i]? = some id ∧ ∀ j, i < j → ids[j]? ≠ some id := by
  have inside : ∀ {j}, ids[j]? = some id → j < ids.length := by
    intro j here
    exact (List.getElem?_eq_some_iff.mp here).1
  simp only [Ne, getElem?_concat_eq_some_iff, not_or, not_and]
  constructor
  · rintro ⟨here | ⟨rfl, same⟩, last⟩
    · have differ := (last ids.length (inside here)).2 rfl
      exact Or.inr ⟨differ, here, fun j later => (last j later).1⟩
    · exact Or.inl ⟨same, rfl⟩
  · rintro (⟨same, rfl⟩ | ⟨differ, here, last⟩)
    · refine ⟨Or.inr ⟨rfl, same⟩, fun j later => ⟨fun found => ?_, fun place => ?_⟩⟩
      · have before := inside found
        omega
      · omega
    · exact ⟨Or.inl here, fun j later => ⟨last j later, fun _ => differ⟩⟩

theorem mem_toList_lastIndices_iff {ids : List Ident} {id : Ident} {i : Nat} :
    (id, i) ∈ (lastIndices ids).toList ↔
      ids[i]? = some id ∧ ∀ j, i < j → ids[j]? ≠ some id := by
  induction ids using List.reverseRecOn with
  | nil => simp [lastIndices]
  | append_singleton ids new ih =>
    rw [lastIndices_concat, mem_toList_insert_iff, ih, last_place_concat_iff]

theorem map_fst_toList_lastIndices (ids : List Ident) :
    (lastIndices ids).toList.map Prod.fst = ascending ids := by
  apply eq_ascending
  · rw [List.pairwise_map]
    exact Std.TreeMap.ordered_keys_toList
  · intro id
    rw [Std.TreeMap.map_fst_toList_eq_keys, Std.TreeMap.mem_keys]
    induction ids using List.reverseRecOn with
    | nil => simp [lastIndices]
    | append_singleton ids new ih =>
      rw [lastIndices_concat, Std.TreeMap.mem_insert, ih, Std.LawfulEqCmp.compare_eq_iff_eq,
        List.mem_append, List.mem_singleton, or_comm, eq_comm]

/-! ## Maps as they are written -/

/-- The text of a member. -/
def memberText (pair : Ident × Nat) : String :=
  "\"" ++ pair.1.text ++ "\":" ++ toString pair.2

theorem compactMembers_map (pairs : List (Ident × Nat)) :
    Json.compactMembers (pairs.map fun (id, n) => (id.text, Json.ofNat n)) =
      pairs.map memberText := by
  induction pairs with
  | nil => rfl
  | cons pair pairs ih =>
    have key : Json.quote pair.1.text = "\"" ++ pair.1.text ++ "\"" := by
      rw [← Json.compact_ofIdent, Json.ofIdent, Json.compact]
    have digits : (Json.ofNat pair.2).compact = toString pair.2 := by
      rw [Json.ofNat, Json.compact, Json.Number.text]
      rfl
    have member : "\"" ++ pair.1.text ++ "\"" ++ ":" ++ toString pair.2 = memberText pair := by
      apply String.toList_inj.mp
      simp [memberText]
    rw [List.map_cons, Json.compactMembers, ih, key, digits, member, List.map_cons]

theorem compact_toJson (m : IdentMap) :
    m.toJson.compact = "\x7b" ++ ",".intercalate (m.toList.map memberText) ++ "\x7d" := by
  rw [toJson, Json.compact, compactMembers_map]

theorem spellsMember_memberText (pair : Ident × Nat) (small : pair.2 < 0x100000000) :
    Json.SpellsMember pair.1.text pair.2 (memberText pair).toList := by
  refine ⟨pair.1.text.toList, [], [], ?_, by simp, by simp, small, ?_⟩
  · have spelled := Json.spells_flatMap_escape pair.1.text.toList
    rwa [Json.flatMap_escape_text] at spelled
  · simp [memberText]

theorem toList_intercalate_cons (s : String) (others : List String) :
    (",".intercalate (s :: others)).toList =
      s.toList ++ others.flatMap fun other => ',' :: other.toList := by
  induction others generalizing s with
  | nil => simp
  | cons other others ih =>
    rw [String.intercalate_cons_cons, String.toList_append, ih]
    simp

theorem spellsMembers_memberText {pairs : List (Ident × Nat)}
    (small : ∀ pair ∈ pairs, pair.2 < 0x100000000) :
    Json.SpellsMembers false (pairs.map fun pair => (pair.1.text, pair.2))
      (pairs.flatMap fun pair => ',' :: (memberText pair).toList) := by
  induction pairs with
  | nil => exact .nil
  | cons pair pairs ih =>
    have others := ih fun other listed => small other (List.mem_cons_of_mem pair listed)
    have first := spellsMember_memberText pair (small pair List.mem_cons_self)
    have apart : Json.Gap false ([] ++ ',' :: []) := .later (by simp) (by simp)
    have whole := Json.SpellsMembers.cons apart first others
    simpa using whole

/-- A map is written as the object of its entries, keys in ascending order. -/
theorem spellsObject_compact {m : IdentMap} (small : ∀ pair ∈ m.toList, pair.2 < 0x100000000) :
    Json.SpellsObject (m.toList.map fun pair => (pair.1.text, pair.2)) m.toJson.compact := by
  rw [compact_toJson]
  cases entries : m.toList with
  | nil => exact ⟨[], [], [], [], by simp, .nil, by simp, by simp, by simp⟩
  | cons pair pairs =>
    rw [entries] at small
    have first := spellsMember_memberText pair (small pair List.mem_cons_self)
    have others := spellsMembers_memberText fun other listed =>
      small other (List.mem_cons_of_mem pair listed)
    have apart : Json.Gap true [] := .first (by simp)
    refine ⟨[], _, [], [], by simp, .cons apart first others, by simp, by simp, ?_⟩
    rw [List.map_cons, String.toList_append, String.toList_append, toList_intercalate_cons,
      List.flatMap_map]
    simp

theorem toList_ofList_toList (m : IdentMap) :
    (Std.TreeMap.ofList m.toList : IdentMap).toList = m.toList := by
  apply Std.TreeMap.Equiv.toList_eq
  apply Std.TreeMap.Equiv.of_forall_constGet?_eq
  intro id
  cases held : m[id]? with
  | some n =>
    have listed := Std.TreeMap.mem_toList_iff_getElem?_eq_some.mpr held
    exact Std.TreeMap.getElem?_ofList_of_mem Std.ReflCmp.compare_self
      Std.TreeMap.distinct_keys_toList listed
  | none =>
    apply Std.TreeMap.getElem?_ofList_of_contains_eq_false
    rw [Std.TreeMap.map_fst_toList_eq_keys, Std.TreeMap.contains_keys,
      Std.TreeMap.contains_eq_isSome_getElem?, held]
    rfl

/-- What is written is read back, if its numbers are of 32 bits. -/
theorem identMapOfText_compact {m : IdentMap} (small : ∀ pair ∈ m.toList, pair.2 < 0x100000000) :
    Json.identMapOfText m.toJson.compact = .ok (Std.TreeMap.ofList m.toList) := by
  apply Json.identMapOfText_of_object (spellsObject_compact small)
  rw [List.forall₂_map_left_iff, List.forall₂_same]
  exact fun pair _ => ⟨Ident.ofText_text pair.1, rfl⟩

end IdentMap

namespace Json

/-! ## Objects as maps -/

theorem SpellsMembers.small {first : Bool} {entries : List (String × Nat)} {cs : List Char}
    (spelled : SpellsMembers first entries cs) : ∀ entry ∈ entries, entry.2 < 0x100000000 := by
  induction spelled with
  | nil => simp
  | cons _ member _ ih =>
    obtain ⟨_, _, _, _, _, _, small, _⟩ := member
    exact List.forall_mem_cons.mpr ⟨small, ih⟩

theorem SpellsObject.small {entries : List (String × Nat)} {text : String}
    (object : SpellsObject entries text) : ∀ entry ∈ entries, entry.2 < 0x100000000 := by
  obtain ⟨_, _, _, _, _, spelled, _⟩ := object
  exact spelled.small

theorem exists_readsEntry {entries : List (String × Nat)}
    (read : ∀ entry ∈ entries, ∃ id, Ident.ofText entry.1 = .ok id) :
    ∃ pairs, List.Forall₂ ReadsEntry entries pairs := by
  apply exists_forall₂
  intro entry listed
  obtain ⟨id, reads⟩ := read entry listed
  exact ⟨(id, entry.2), reads, rfl⟩

/-- The map holds what the last entries of an object say, each identifier once. -/
structure HoldsLast (entries : List (String × Nat)) (m : IdentMap) : Prop where
  ascending : m.toList.Pairwise fun a b => Before a.1 b.1
  keys : ∀ id, id ∈ m.toList.map Prod.fst ↔ ∃ entry ∈ entries, Ident.ofText entry.1 = .ok id
  counts : ∀ id n, (id, n) ∈ m.toList ↔ IdentMap.LastEntry entries id n
  alike : ∀ a ∈ entries, ∀ b ∈ entries,
    Ident.ofText a.1 = Ident.ofText b.1 ↔ a.1.toLower = b.1.toLower

theorem holdsLast_ofList {entries : List (String × Nat)} {pairs : List (Ident × Nat)}
    (read : List.Forall₂ ReadsEntry entries pairs)
    (accepts : ∀ entry ∈ entries, ∃ id, Ident.ofText entry.1 = .ok id) :
    HoldsLast entries (Std.TreeMap.ofList pairs) where
  ascending := Std.TreeMap.ordered_keys_toList
  keys := by
    intro id
    constructor
    · intro listed
      obtain ⟨⟨key, n⟩, held, rfl⟩ := List.mem_map.mp listed
      obtain ⟨key, member, reads⟩ := ((IdentMap.mem_toList_ofList_iff read).mp held).exists_mem
      exact ⟨(key, n), member, reads⟩
    · intro reads
      obtain ⟨n, last⟩ := IdentMap.exists_lastEntry reads
      exact List.mem_map.mpr ⟨(id, n), (IdentMap.mem_toList_ofList_iff read).mpr last, rfl⟩
  counts := fun _ _ => IdentMap.mem_toList_ofList_iff read
  alike := by
    intro a memberA b memberB
    obtain ⟨_, first⟩ := accepts a memberA
    obtain ⟨_, second⟩ := accepts b memberB
    exact Ident.ofText_eq_ofText_iff first second

/-- An object is refused for the first of its keys that is no identifier. -/
theorem exists_refused_of_object {entries : List (String × Nat)} {text : String}
    (object : SpellsObject entries text)
    (refused : ∃ entry ∈ entries, ∀ id, Ident.ofText entry.1 ≠ .ok id) :
    ∃ before key n after, entries = before ++ (key, n) :: after ∧
      (∀ entry ∈ before, ∃ id, Ident.ofText entry.1 = .ok id) ∧
      (∀ id, Ident.ofText key ≠ .ok id) ∧
      identMapOfText text = .error (.data (.ident (.malformed key))) := by
  obtain ⟨before, ⟨key, n⟩, after, e, rfl, accepts, first, -⟩ :=
    mapM_eq_error_of_exists (f := fun entry : String × Nat => Ident.ofText entry.1) refused
  have bad : ∀ id, Ident.ofText key ≠ .ok id := by
    intro id reads
    cases first.symm.trans reads
  obtain ⟨pairs, read⟩ := exists_readsEntry accepts
  exact ⟨before, key, n, after, rfl, accepts, bad,
    identMapOfText_of_refused object.reachesKey read bad⟩

theorem accepts_of_taken {entries : List (String × Nat)} {text : String} {m : IdentMap}
    (object : SpellsObject entries text) (taken : identMapOfText text = .ok m) :
    ∀ entry ∈ entries, ∃ id, Ident.ofText entry.1 = .ok id := by
  by_contra refused
  simp only [not_forall, not_exists] at refused
  obtain ⟨entry, listed, refused⟩ := refused
  obtain ⟨before, key, n, after, -, -, -, stopped⟩ :=
    exists_refused_of_object object ⟨entry, listed, refused⟩
  rw [taken] at stopped
  cases stopped

theorem holdsLast_of_taken {entries : List (String × Nat)} {text : String} {m : IdentMap}
    (object : SpellsObject entries text) (taken : identMapOfText text = .ok m) :
    HoldsLast entries m := by
  have accepts := accepts_of_taken object taken
  obtain ⟨pairs, read⟩ := exists_readsEntry accepts
  rw [identMapOfText_of_object object read] at taken
  cases taken
  exact holdsLast_ofList read accepts

/-- Every number that is read is of 32 bits. -/
theorem small_of_taken {text : String} {m : IdentMap} (taken : identMapOfText text = .ok m) :
    ∀ pair ∈ m.toList, pair.2 < 0x100000000 := by
  obtain ⟨entries, object⟩ := exists_object_of_identMapOfText taken
  rintro ⟨id, n⟩ held
  have last := ((holdsLast_of_taken object taken).counts id n).mp held
  obtain ⟨key, listed, -⟩ := last.exists_mem
  exact object.small (key, n) listed

/-- The indices of a list are read back exactly if all of them are numbers of 32 bits. -/
theorem lastIndices_read_back_iff (ids : List Ident) :
    (∃ m, identMapOfText (IdentMap.lastIndices ids).toJson.compact = .ok m ∧
      m.toList = (IdentMap.lastIndices ids).toList) ↔ ids.length ≤ 0x100000000 := by
  constructor
  · rintro ⟨m, taken, same⟩
    have small := small_of_taken taken
    rw [same] at small
    by_contra more
    have final : (ids[ids.length - 1], ids.length - 1) ∈ (IdentMap.lastIndices ids).toList := by
      refine IdentMap.mem_toList_lastIndices_iff.mpr ⟨List.getElem?_eq_getElem _, ?_⟩
      intro j later
      rw [List.getElem?_eq_none (by omega)]
      nofun
    have bound := small _ final
    dsimp only at bound
    omega
  · intro bound
    have small : ∀ pair ∈ (IdentMap.lastIndices ids).toList, pair.2 < 0x100000000 := by
      rintro ⟨id, i⟩ held
      have here := (IdentMap.mem_toList_lastIndices_iff.mp held).1
      have inside := (List.getElem?_eq_some_iff.mp here).1
      dsimp only
      omega
    exact ⟨_, IdentMap.identMapOfText_compact small, IdentMap.toList_ofList_toList _⟩

/-- An object of numbers is taken exactly if all keys are identifiers, and then as the map that
holds each of them once, in ascending order, with the number of the last member whose key is read
as it. The first key that is no identifier is the error, whatever follows. Nothing else is taken.
The last indices in a list are written with their keys in ascending order, and are read back as
they were as long as they are numbers of 32 bits. -/
theorem identMap_keeps_last_entries :
    (∀ (entries : List (String × Nat)) (text : String), SpellsObject entries text →
      ((∃ m, identMapOfText text = .ok m) ↔
        ∀ entry ∈ entries, ∃ id, Ident.ofText entry.1 = .ok id) ∧
      (∀ m, identMapOfText text = .ok m → HoldsLast entries m) ∧
      ((∃ entry ∈ entries, ∀ id, Ident.ofText entry.1 ≠ .ok id) →
        ∃ before key n after, entries = before ++ (key, n) :: after ∧
          (∀ entry ∈ before, ∃ id, Ident.ofText entry.1 = .ok id) ∧
          (∀ id, Ident.ofText key ≠ .ok id) ∧
          identMapOfText text = .error (.data (.ident (.malformed key))))) ∧
    (∀ (entries : List (String × Nat)) (key text : String), ReachesKey entries key text →
      (∀ entry ∈ entries, ∃ id, Ident.ofText entry.1 = .ok id) →
      (∀ id, Ident.ofText key ≠ .ok id) →
      identMapOfText text = .error (.data (.ident (.malformed key))) ∧
        (DataError.ident (.malformed key)).message =
          "invalid protocol identifier: " ++ Text.quote key) ∧
    (∀ (text : String) (m : IdentMap), identMapOfText text = .ok m →
      ∃ entries, SpellsObject entries text) ∧
    (∀ ids : List Ident,
      (IdentMap.lastIndices ids).toList.map Prod.fst = ascending ids ∧
      (ascending ids).Pairwise Before ∧
      (∀ id i, (id, i) ∈ (IdentMap.lastIndices ids).toList ↔
        ids[i]? = some id ∧ ∀ j, i < j → ids[j]? ≠ some id) ∧
      (IdentMap.lastIndices ids).toJson.compact =
        "\x7b" ++ ",".intercalate ((IdentMap.lastIndices ids).toList.map fun pair =>
          "\"" ++ pair.1.text ++ "\":" ++ toString pair.2) ++ "\x7d" ∧
      ((∃ m, identMapOfText (IdentMap.lastIndices ids).toJson.compact = .ok m ∧
        m.toList = (IdentMap.lastIndices ids).toList) ↔ ids.length ≤ 0x100000000)) := by
  refine ⟨?_, ?_, ?_, ?_⟩
  · intro entries text object
    refine ⟨⟨?_, ?_⟩, fun m => holdsLast_of_taken object, exists_refused_of_object object⟩
    · rintro ⟨m, taken⟩
      exact accepts_of_taken object taken
    · intro accepts
      obtain ⟨pairs, read⟩ := exists_readsEntry accepts
      exact ⟨_, identMapOfText_of_object object read⟩
  · intro entries key text reaches accepts refused
    obtain ⟨pairs, read⟩ := exists_readsEntry accepts
    exact ⟨identMapOfText_of_refused reaches read refused, rfl⟩
  · intro text m taken
    exact exists_object_of_identMapOfText taken
  · intro ids
    exact ⟨IdentMap.map_fst_toList_lastIndices ids, pairwise_ascending ids,
      fun id i => IdentMap.mem_toList_lastIndices_iff, IdentMap.compact_toJson _,
      lastIndices_read_back_iff ids⟩

/-- An escape and a letter of the other case in a key that comes again, a prefix of the wrong case
before text that is no object, and a list with a repeated member. -/
theorem identMap_of_repeated_keys :
    (∃ m, identMapOfText
        "\x7b\"0xABCDEF01\" : 1 ,\n\"\\u0030xabcdef01\":20, \"0x00000000\":3\x7d " = .ok m ∧
      (⟨0xabcdef01⟩, 20) ∈ m.toList ∧ m.toList.Pairwise fun a b => Before a.1 b.1) ∧
    identMapOfText "\x7b\"0x00000000\":1,\"0X00000000\"]" =
      .error (.data (.ident (.malformed "0X00000000"))) ∧
    (∃ m, identMapOfText (IdentMap.lastIndices [⟨2⟩, ⟨1⟩, ⟨2⟩]).toJson.compact = .ok m ∧
      m.toList = (IdentMap.lastIndices [⟨2⟩, ⟨1⟩, ⟨2⟩]).toList) := by
  have upper : Ident.ofText "0xABCDEF01" = .ok ⟨0xabcdef01⟩ := by decide +kernel
  have lower : Ident.ofText "0xabcdef01" = .ok ⟨0xabcdef01⟩ := by decide +kernel
  have zero : Ident.ofText "0x00000000" = .ok ⟨0⟩ := by decide +kernel
  have refused : ∀ id, Ident.ofText "0X00000000" ≠ .ok id := nofun
  obtain ⟨objects, reached, -, written⟩ := identMap_keeps_last_entries
  refine ⟨?_, ?_, (written [⟨2⟩, ⟨1⟩, ⟨2⟩]).2.2.2.2.mpr (by decide)⟩
  · have escaped : Spells "0xabcdef01".toList "\\u0030xabcdef01".toList := by
      have first : SpellsChar '0' ['\\', 'u', '0', '0', '3', '0'] := .unit (by decide)
      exact .cons first (spells_flatMap_escape "xabcdef01".toList)
    have one : SpellsMember "0xABCDEF01" 1 _ :=
      ⟨_, [' '], [' '], spells_flatMap_escape _, by simp [Blank], by simp [Blank], by decide, rfl⟩
    have two : SpellsMember "0xabcdef01" 20 _ :=
      ⟨_, [], [], escaped, by simp, by simp, by decide, rfl⟩
    have three : SpellsMember "0x00000000" 3 _ :=
      ⟨_, [], [], spells_flatMap_escape _, by simp, by simp, by decide, rfl⟩
    have object : SpellsObject [("0xABCDEF01", 1), ("0xabcdef01", 20), ("0x00000000", 3)]
        "\x7b\"0xABCDEF01\" : 1 ,\n\"\\u0030xabcdef01\":20, \"0x00000000\":3\x7d " := by
      have begins : Gap true [] := .first (by simp)
      have second : Gap false ([' '] ++ ',' :: ['\n']) := .later (by simp [Blank]) (by simp [Blank])
      have third : Gap false ([] ++ ',' :: [' ']) := .later (by simp) (by simp [Blank])
      have members := SpellsMembers.cons begins one (.cons second two (.cons third three .nil))
      exact ⟨[], _, [], [' '], by simp, members, by simp, by simp [Blank], rfl⟩
    have accepts : ∀ entry ∈ [("0xABCDEF01", 1), ("0xabcdef01", 20), ("0x00000000", 3)],
        ∃ id, Ident.ofText entry.1 = .ok id := by
      simp [upper, lower, zero]
    obtain ⟨taken, holds, -⟩ := objects _ _ object
    obtain ⟨m, read⟩ := taken.mpr accepts
    have last : IdentMap.LastEntry [("0xABCDEF01", 1), ("0xabcdef01", 20), ("0x00000000", 3)]
        ⟨0xabcdef01⟩ 20 :=
      ⟨[("0xABCDEF01", 1)], "0xabcdef01", [("0x00000000", 3)], rfl, lower, by simp [zero]⟩
    exact ⟨m, read, ((holds m read).counts _ _).mpr last, (holds m read).ascending⟩
  · have reaches : ReachesKey [("0x00000000", 1)] "0X00000000"
        "\x7b\"0x00000000\":1,\"0X00000000\"]" := by
      have one : SpellsMember "0x00000000" 1 _ :=
        ⟨_, [], [], spells_flatMap_escape _, by simp, by simp, by decide, rfl⟩
      have begins : Gap true [] := .first (by simp)
      have second : Gap false ([] ++ ',' :: []) := .later (by simp) (by simp)
      exact ⟨[], _, _, _, [']'], by simp, .cons begins one .nil, second,
        spells_flatMap_escape "0X00000000".toList, rfl⟩
    exact (reached _ _ _ reaches (by simp [zero]) refused).1

end Json

end ProtocolIdent
