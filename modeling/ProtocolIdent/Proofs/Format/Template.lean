import Mathlib.Data.List.Basic
import ProtocolIdent.Format.Template
import ProtocolIdent.Proofs.DecimalText
import ProtocolIdent.Proofs.Format.Padding

/-!
# Placeholders for all flags

The parts of a placeholder stand in a fixed order, and no part goes on with a character that the
part before it would take for its own. So each part is read as what it was written for, whatever
the others are, and every combination of flags can be asked for in a template
(`ofText?_placeholder`).
-/
namespace ProtocolIdent.Format

/-! ## How flags are asked for -/

/-- The mark that an alignment is asked for with. -/
def Align.mark : Align → Char
  | left => '<'
  | centre => '^'
  | right => '>'

theorem Align.ofMark?_mark (side : Align) : ofMark? side.mark = some side := by
  cases side <;> rfl

theorem Align.eq_mark_of_ofMark? {c : Char} {side : Align} (marks : ofMark? c = some side) :
    c = side.mark := by
  unfold ofMark? at marks
  split at marks <;> cases marks <;> rfl

namespace Spec

variable (spec : Spec)

def alignPart : List Char :=
  match spec.align with
  | some side => [spec.fill, side.mark]
  | none => []

def signPart : List Char :=
  if spec.plus then ['+'] else []

def alternatePart : List Char :=
  if spec.alternate then ['#'] else []

def zeroPart : List Char :=
  if spec.zero then ['0'] else []

def widthPart : List Char :=
  if spec.width = 0 then [] else Nat.toDigits 10 spec.width

/-- What stands between the braces of a placeholder for flags, with the name of a form. -/
def body (name : List Char) : List Char :=
  ':' :: (spec.alignPart ++ (spec.signPart ++ (spec.alternatePart ++ (spec.zeroPart ++
    (spec.widthPart ++ name)))))

/-! ## Each part is read up to the next -/

section Parts

variable {rest : List Char}

theorem readAlign_of_unmarked {cs : List Char} (unmarked : ∀ c ∈ cs, Align.ofMark? c = none) :
    spec.readAlign cs = (spec, cs) := by
  match cs with
  | [] => rfl
  | [c] => rw [readAlign, unmarked c (by simp)]
  | c :: d :: rest => rw [readAlign, unmarked c (by simp), unmarked d (by simp)]

theorem readAlign_alignPart (plain : spec.align = none → spec.fill = ' ')
    (unmarked : ∀ c ∈ rest, Align.ofMark? c = none) :
    readAlign { spec with fill := ' ', align := none } (spec.alignPart ++ rest) =
      (spec, rest) := by
  obtain ⟨fill, align, plus, alternate, zero, width, form⟩ := spec
  cases align with
  | none =>
    cases plain rfl
    exact readAlign_of_unmarked _ unmarked
  | some side =>
    have marks := side.ofMark?_mark
    simp [alignPart, readAlign, marks]

theorem readSign_signPart (other : ∀ c ∈ rest.head?, c ≠ '+' ∧ c ≠ '-') :
    readSign { spec with plus := false } (spec.signPart ++ rest) = (spec, rest) := by
  obtain ⟨fill, align, plus, alternate, zero, width, form⟩ := spec
  cases plus with
  | true => rfl
  | false =>
    change readSign _ rest = _
    unfold readSign
    split
    · exact absurd rfl (other '+' rfl).1
    · exact absurd rfl (other '-' rfl).2
    · rfl

theorem readAlternate_alternatePart (other : ∀ c ∈ rest.head?, c ≠ '#') :
    readAlternate { spec with alternate := false } (spec.alternatePart ++ rest) =
      (spec, rest) := by
  obtain ⟨fill, align, plus, alternate, zero, width, form⟩ := spec
  cases alternate with
  | true => rfl
  | false =>
    change readAlternate _ rest = _
    unfold readAlternate
    split
    · exact absurd rfl (other '#' rfl)
    · rfl

theorem readZero_zeroPart (other : ∀ c ∈ rest.head?, c ≠ '0') :
    readZero { spec with zero := false } (spec.zeroPart ++ rest) = (spec, rest) := by
  obtain ⟨fill, align, plus, alternate, zero, width, form⟩ := spec
  cases zero with
  | true => rfl
  | false =>
    change readZero _ rest = _
    unfold readZero
    split
    · exact absurd rfl (other '0' rfl)
    · rfl

theorem isDigit_of_mem_widthPart {c : Char} (member : c ∈ spec.widthPart) : c.isDigit = true := by
  unfold widthPart at member
  split at member
  · cases member
  · exact Digits.isDigit_of_mem_toDigits member

theorem readWidth_widthPart (stop : Digits.NoDigit rest) :
    readWidth { spec with width := 0 } (spec.widthPart ++ rest) = (spec, rest) := by
  have digits : ∀ c ∈ spec.widthPart, c.isDigit = true :=
    fun c => spec.isDigit_of_mem_widthPart
  obtain ⟨taken, left⟩ := Digits.takeWhile_digits digits stop
  have value : Digits.value 10 (spec.widthPart.map fun c => c.toNat - 48) = spec.width := by
    unfold widthPart
    split
    · rename_i zero
      exact zero.symm
    · exact Digits.value_toDigits spec.width
  rw [readWidth, taken, left, value]

theorem skipPrecision_of_head (other : ∀ c ∈ rest.head?, c ≠ '.') :
    skipPrecision rest = rest := by
  unfold skipPrecision
  split
  · exact absurd rfl (other '.' rfl)
  · rfl

end Parts

/-! ## What stands behind a part does not go on with it -/

theorem mem_name {name : List Char} {form : Form} (named : Form.ofName? name = some form) :
    ∀ c ∈ name, c ∈ ['x', 'X', '?'] := by
  unfold Form.ofName? at named
  split at named <;> cases named <;> simp

/-- The characters that widths and names of forms are spelled with mean nothing before them. -/
theorem not_mem_reserved {c : Char} (sized : c.isDigit = true ∨ c ∈ ['x', 'X', '?']) :
    c ∉ ['<', '^', '>', '+', '-', '#', '.', '\x7d'] := by
  intro reserved
  have others : ∀ d ∈ ['<', '^', '>', '+', '-', '#', '.', '\x7d'],
      d.isDigit = false ∧ d ∉ ['x', 'X', '?'] := by simp
  obtain ⟨noDigit, noName⟩ := others c reserved
  rcases sized with digit | named
  · rw [noDigit] at digit
    cases digit
  · exact noName named

variable {name : List Char} {form : Form} (named : Form.ofName? name = some form)
include named

theorem sized_of_mem {c : Char} (member : c ∈ spec.zeroPart ++ (spec.widthPart ++ name)) :
    c.isDigit = true ∨ c ∈ ['x', 'X', '?'] := by
  rw [List.mem_append, List.mem_append] at member
  rcases member with zero | width | last
  · unfold zeroPart at zero
    split at zero
    · rw [List.mem_singleton.mp zero]
      exact .inl rfl
    · cases zero
  · exact .inl (spec.isDigit_of_mem_widthPart width)
  · exact .inr (mem_name named c last)

theorem flag_of_mem {c : Char}
    (member : c ∈ spec.alternatePart ++ (spec.zeroPart ++ (spec.widthPart ++ name))) :
    c = '#' ∨ c ∉ ['<', '^', '>', '+', '-', '#', '.', '\x7d'] := by
  rcases List.mem_append.mp member with mark | sized
  · unfold alternatePart at mark
    split at mark
    · exact .inl (List.mem_singleton.mp mark)
    · cases mark
  · exact .inr (not_mem_reserved (spec.sized_of_mem named sized))

theorem ofMark?_of_mem : ∀ c ∈ spec.signPart ++ (spec.alternatePart ++ (spec.zeroPart ++
    (spec.widthPart ++ name))), Align.ofMark? c = none := by
  intro c member
  rcases List.mem_append.mp member with sign | flag
  · unfold signPart at sign
    split at sign
    · rw [List.mem_singleton.mp sign]
      rfl
    · cases sign
  · rcases spec.flag_of_mem named flag with rfl | unreserved
    · rfl
    · cases marks : Align.ofMark? c with
      | none => rfl
      | some side =>
        rw [Align.eq_mark_of_ofMark? marks] at unreserved
        cases side <;> exact absurd (by decide) unreserved

theorem ne_sign_of_head : ∀ c ∈ (spec.alternatePart ++ (spec.zeroPart ++
    (spec.widthPart ++ name))).head?, c ≠ '+' ∧ c ≠ '-' := by
  intro c first
  rcases spec.flag_of_mem named (List.mem_of_mem_head? first) with rfl | unreserved
  · decide
  · constructor <;> rintro rfl <;> exact unreserved (by decide)

theorem ne_alternate_of_head :
    ∀ c ∈ (spec.zeroPart ++ (spec.widthPart ++ name)).head?, c ≠ '#' := by
  rintro c first rfl
  have sized := spec.sized_of_mem named (List.mem_of_mem_head? first)
  exact not_mem_reserved sized (by decide)

/-- No width begins with a zero. -/
theorem ne_zero_of_head : ∀ c ∈ (spec.widthPart ++ name).head?, c ≠ '0' := by
  rintro c first rfl
  unfold widthPart at first
  split at first
  · have last := mem_name named '0' (List.mem_of_mem_head? first)
    exact absurd last (by decide)
  · rename_i wide
    rw [List.head?_append_of_ne_nil _ Nat.toDigits_ne_nil] at first
    exact wide (Digits.eq_zero_of_head?_toDigits (by decide) (by decide) first)

theorem noDigit_name : Digits.NoDigit name := by
  intro c first
  have others : ∀ d ∈ ['x', 'X', '?'], d.isDigit = false := by simp
  exact others c (mem_name named c (List.mem_of_mem_head? first))

theorem ne_point_of_head : ∀ c ∈ name.head?, c ≠ '.' := by
  rintro c first rfl
  exact absurd (mem_name named '.' (List.mem_of_mem_head? first)) (by decide)

/-- Flags are read from a placeholder as they were asked for. -/
theorem ofBody?_body (plain : spec.align = none → spec.fill = ' ') :
    ofBody? (spec.body name) = some { spec with form } := by
  -- the parts are read from the front, each into a spec that the parts before it have filled
  have align : readAlign {} (spec.alignPart ++ _) = ({ fill := spec.fill, align := spec.align }, _) :=
    readAlign_alignPart { fill := spec.fill, align := spec.align } plain (spec.ofMark?_of_mem named)
  have sign : readSign { fill := spec.fill, align := spec.align } (spec.signPart ++ _) =
      ({ spec with alternate := false, zero := false, width := 0, form := .text }, _) :=
    readSign_signPart { spec with alternate := false, zero := false, width := 0, form := .text }
      (spec.ne_sign_of_head named)
  have alternate : readAlternate
      { spec with alternate := false, zero := false, width := 0, form := .text }
      (spec.alternatePart ++ _) = ({ spec with zero := false, width := 0, form := .text }, _) :=
    readAlternate_alternatePart { spec with zero := false, width := 0, form := .text }
      (spec.ne_alternate_of_head named)
  have zero : readZero { spec with zero := false, width := 0, form := .text }
      (spec.zeroPart ++ _) = ({ spec with width := 0, form := .text }, _) :=
    readZero_zeroPart { spec with width := 0, form := .text } (spec.ne_zero_of_head named)
  have width : readWidth { spec with width := 0, form := .text } (spec.widthPart ++ _) =
      ({ spec with form := .text }, _) :=
    readWidth_widthPart { spec with form := .text } (noDigit_name named)
  have last := skipPrecision_of_head (ne_point_of_head named)
  simp only [body, ofBody?, align, sign, alternate, zero, width, last, named, Option.map_some]

/-- Only a fill can be a closing brace. -/
theorem not_mem_body (fill : spec.fill ≠ '\x7d') : '\x7d' ∉ spec.body name := by
  intro member
  rcases List.mem_cons.mp member with colon | member
  · cases colon
  · rcases List.mem_append.mp member with align | member
    · unfold alignPart at align
      split at align
      · rename_i side _
        rcases List.mem_cons.mp align with same | align
        · exact fill same.symm
        · have mark := List.mem_singleton.mp align
          cases side <;> cases mark
      · cases align
    · rcases List.mem_append.mp member with sign | flag
      · unfold signPart at sign
        split at sign
        · cases List.mem_singleton.mp sign
        · cases sign
      · rcases spec.flag_of_mem named flag with mark | unreserved
        · cases mark
        · exact unreserved (by decide)

end Spec

/-! ## Placeholders in a template -/

/-- A placeholder ends at the first closing brace. -/
theorem readSegments_of_closed {body : List Char} (closed : '\x7d' ∉ body) (before : List Char)
    (rest : List Char) :
    readSegments (some before) (body ++ '\x7d' :: rest) =
      match Spec.ofBody? (before.reverse ++ body) with
      | some spec => (readSegments none rest).map (.placeholder spec :: ·)
      | none => none := by
  induction body generalizing before with
  | nil =>
    rw [List.append_nil]
    rfl
  | cons c body ih =>
    have other : c ≠ '\x7d' := fun same => closed (same ▸ List.mem_cons_self)
    have later := ih (fun member => closed (List.mem_cons_of_mem c member)) (c :: before)
    rw [List.reverse_cons, List.append_assoc, List.singleton_append] at later
    rw [← later, List.cons_append, readSegments]
    exact other

/-- The template of one placeholder for flags. -/
def Spec.placeholder (spec : Spec) (name : List Char) : String :=
  String.ofList ('\x7b' :: (spec.body name ++ ['\x7d']))

theorem Template.render_placeholder (spec : Spec) (id : Ident) :
    Template.render { segments := [.placeholder spec] } id = spec.render id := by
  simp [render, String.join]

variable {spec : Spec} {name : List Char} {form : Form}

/-- Every combination of flags can be asked for, as far as the fill comes with an alignment and is
no closing brace. -/
theorem ofText?_placeholder (named : Form.ofName? name = some form)
    (plain : spec.align = none → spec.fill = ' ') (fill : spec.fill ≠ '\x7d') :
    Template.ofText? (spec.placeholder name) =
      some { segments := [.placeholder { spec with form }] } := by
  have read := readSegments_of_closed (spec.not_mem_body named fill) [] []
  rw [List.reverse_nil, List.nil_append, spec.ofBody?_body named plain] at read
  have opened : readSegments none ('\x7b' :: (spec.body name ++ ['\x7d'])) =
      readSegments (some []) (spec.body name ++ ['\x7d']) := rfl
  rw [Template.ofText?, Spec.placeholder, String.toList_ofList, opened, read]
  rfl

end ProtocolIdent.Format
