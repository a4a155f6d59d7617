import Mathlib.Data.List.Basic
import ProtocolIdent.Proofs.CommandLine

/-!
# The lines of the report

Standard output is read line by line. The version string stands in the report as it was given, so
every line feed in it ends a line: the output is the two documented lines exactly if there is none
(`stdout_by_lines`). Otherwise what stands behind the first line feed is not labelled any more, and
a line of the version string that begins like the line of the identifier is found in its place
(`imitation_of_forged`). The line of the identifier itself is always the last one.
-/
namespace ProtocolIdent

/-! ## Bytes by lines -/

namespace Lines

def lineFeed : UInt8 := 0x0A

/-- Lines, each ended by a line feed. -/
def write (lines : List (List UInt8)) : List UInt8 :=
  lines.flatMap (· ++ [lineFeed])

/-- The lines that line feeds end. What stands behind the last line feed is no line. -/
def read (bytes : List UInt8) : List (List UInt8) :=
  (bytes.splitOn lineFeed).dropLast

/-- What a reader obtains who takes the first line that begins with a label. -/
def find (label bytes : List UInt8) : Option (List UInt8) :=
  (read bytes).findSome? (·.dropPrefix? label)

@[simp] theorem write_nil : write [] = [] := rfl

@[simp] theorem write_cons (line : List UInt8) (lines : List (List UInt8)) :
    write (line :: lines) = line ++ lineFeed :: write lines := by
  simp [write]

@[simp] theorem write_append (lines more : List (List UInt8)) :
    write (lines ++ more) = write lines ++ write more :=
  List.flatMap_append

theorem write_modifyHead (front : List UInt8) {lines : List (List UInt8)} (some : lines ≠ []) :
    write (lines.modifyHead (front ++ ·)) = front ++ write lines := by
  cases lines with
  | nil => exact absurd rfl some
  | cons line lines => simp

/-- Bytes have a first line, be it ended or not. -/
theorem exists_splitOn (bytes : List UInt8) :
    ∃ first rest, bytes.splitOn lineFeed = first :: rest :=
  List.exists_cons_of_ne_nil (List.splitOn_ne_nil lineFeed bytes)

theorem write_splitOn (bytes : List UInt8) :
    write (bytes.splitOn lineFeed) = bytes ++ [lineFeed] := by
  induction bytes with
  | nil => rfl
  | cons b bytes ih =>
    rw [List.splitOn_cons_eq_if_modifyHead]
    by_cases ends : b = lineFeed
    · rw [if_pos (by simpa using ends), write_cons, ih, ends]
      rfl
    · rw [if_neg (by simpa using ends)]
      exact (write_modifyHead [b] (List.splitOn_ne_nil lineFeed bytes)).trans
        (congrArg ([b] ++ ·) ih)

theorem not_mem_of_mem_splitOn {bytes line : List UInt8}
    (member : line ∈ bytes.splitOn lineFeed) : lineFeed ∉ line := by
  induction bytes generalizing line with
  | nil =>
    rw [List.splitOn_nil, List.mem_singleton] at member
    subst member
    exact List.not_mem_nil
  | cons b bytes ih =>
    rw [List.splitOn_cons_eq_if_modifyHead] at member
    split at member
    · rcases List.mem_cons.mp member with rfl | member
      · exact List.not_mem_nil
      · exact ih member
    · rename_i other
      obtain ⟨first, rest, lines⟩ := exists_splitOn bytes
      rw [lines] at ih member
      rcases List.mem_cons.mp member with rfl | member
      · intro ended
        rcases List.mem_cons.mp ended with rfl | ended
        · exact other (beq_self_eq_true _)
        · exact ih List.mem_cons_self ended
      · exact ih (List.mem_cons_of_mem first member)

variable {lines : List (List UInt8)} (unbroken : ∀ line ∈ lines, lineFeed ∉ line)
include unbroken

/-- Lines are read back as they were written. -/
theorem read_write : read (write lines) = lines := by
  induction lines with
  | nil => rfl
  | cons line lines ih =>
    have later := ih fun l member => unbroken l (List.mem_cons_of_mem line member)
    rw [read] at later
    rw [read, write_cons,
      List.splitOn_append_cons_self_of_not_mem (unbroken line List.mem_cons_self),
      List.dropLast_cons_of_ne_nil (List.splitOn_ne_nil lineFeed _), later]

theorem count_write : (write lines).count lineFeed = lines.length := by
  induction lines with
  | nil => rfl
  | cons line lines ih =>
    have first := List.count_eq_zero.mpr (unbroken line List.mem_cons_self)
    have later := ih fun l member => unbroken l (List.mem_cons_of_mem line member)
    rw [write_cons, List.count_append, List.count_cons_self, first, later, List.length_cons,
      Nat.zero_add]

omit unbroken

theorem length_splitOn (bytes : List UInt8) :
    (bytes.splitOn lineFeed).length = bytes.count lineFeed + 1 := by
  -- the lines of the bytes, written out again, are the bytes and one more line feed
  rw [← count_write fun line member => not_mem_of_mem_splitOn member, write_splitOn,
    List.count_append, List.count_singleton_self]

theorem dropPrefix?_append (label rest : List UInt8) :
    (label ++ rest).dropPrefix? label = some rest :=
  List.dropPrefix?_eq_some_iff.mpr ⟨label, rfl, beq_self_eq_true label⟩

/-! ### Line feeds in texts -/

theorem count_lineFeed_encode (text : String) :
    (Utf8.encode text).count lineFeed = text.toList.count '\n' := by
  have narrow : ('\n').toNat < 128 := by decide
  exact Utf8.count_encode_of_ascii narrow text

theorem lineFeed_mem_encode_iff {text : String} :
    lineFeed ∈ Utf8.encode text ↔ '\n' ∈ text.toList := by
  rw [← List.count_pos_iff, count_lineFeed_encode, List.count_pos_iff]

end Lines

/-! ## The report by lines -/

namespace Report

def versionLabel : List UInt8 := Utf8.encode "Version string:   "

def identLabel : List UInt8 := Utf8.encode "Proto identifier: "

/-- The line of an identifier, ended. -/
def identLine (id : Ident) : List UInt8 :=
  identLabel ++ Utf8.encode id.text ++ [Lines.lineFeed]

theorem encode_text_eq_parts (version : String) :
    Utf8.encode (text version) = versionLabel ++ Utf8.encode version ++ [Lines.lineFeed] ++
      identLine (Ident.ofVersion version) := by
  have ended : Utf8.encode "\n" = [Lines.lineFeed] := rfl
  rw [text, Utf8.encode_join]
  simp [pieces, ended, versionLabel, identLabel, identLine]

/-- The lines of the report on a version string: those of the version string, with a label before
the first, and the one of the identifier. -/
def lines (version : String) : List (List UInt8) :=
  ((Utf8.encode version).splitOn Lines.lineFeed).modifyHead (versionLabel ++ ·) ++
    [identLabel ++ Utf8.encode (Ident.ofVersion version).text]

theorem encode_text_eq_write (version : String) :
    Utf8.encode (text version) = Lines.write (lines version) := by
  rw [encode_text_eq_parts, lines, Lines.write_append,
    Lines.write_modifyHead _ (List.splitOn_ne_nil _ _), Lines.write_splitOn, ← List.append_assoc,
    Lines.write_cons, Lines.write_nil]
  rfl

theorem length_lines (version : String) :
    (lines version).length = 2 + version.toList.count '\n' := by
  rw [lines, List.length_append, List.length_modifyHead, Lines.length_splitOn,
    Lines.count_lineFeed_encode, List.length_singleton]
  omega

theorem lines_of_unbroken {version : String} (unbroken : '\n' ∉ version.toList) :
    lines version = [versionLabel ++ Utf8.encode version,
      identLabel ++ Utf8.encode (Ident.ofVersion version).text] := by
  rw [lines, List.splitOn_eq_singleton (mt Lines.lineFeed_mem_encode_iff.mp unbroken)]
  rfl

theorem lineFeed_not_mem_versionLabel : Lines.lineFeed ∉ versionLabel := by
  decide

theorem lineFeed_not_mem_identLabel : Lines.lineFeed ∉ identLabel := by
  decide

theorem lineFeed_not_mem_identLine (id : Ident) :
    Lines.lineFeed ∉ identLabel ++ Utf8.encode id.text := by
  rw [List.mem_append, not_or, Lines.lineFeed_mem_encode_iff, Ident.toList_text]
  refine ⟨lineFeed_not_mem_identLabel, fun member => ?_⟩
  simp only [List.mem_cons, Char.reduceEq, false_or] at member
  exact absurd (Ident.isLower_of_mem_digits member) (by decide)

theorem lineFeed_not_mem_of_mem_lines {version : String} {line : List UInt8}
    (member : line ∈ lines version) : Lines.lineFeed ∉ line := by
  rw [lines] at member
  obtain ⟨first, rest, split⟩ := Lines.exists_splitOn (Utf8.encode version)
  have unbroken : ∀ line ∈ first :: rest, Lines.lineFeed ∉ line := fun line member =>
    Lines.not_mem_of_mem_splitOn (split ▸ member)
  rw [split] at member
  simp only [List.modifyHead_cons, List.cons_append, List.mem_cons, List.mem_append,
    List.not_mem_nil, or_false] at member
  rcases member with rfl | member | rfl
  · rw [List.mem_append, not_or]
    exact ⟨lineFeed_not_mem_versionLabel, unbroken first List.mem_cons_self⟩
  · exact unbroken line (List.mem_cons_of_mem first member)
  · exact lineFeed_not_mem_identLine _

theorem read_text (version : String) : Lines.read (Utf8.encode (text version)) = lines version := by
  rw [encode_text_eq_write]
  exact Lines.read_write fun line member => lineFeed_not_mem_of_mem_lines member

/-! ## What a reader of the output finds -/

/-- What stands in the place of the identifier in a version string: what follows its label in the
first line, apart from the one at the front, that begins with it. -/
def imitation (version : String) : Option (List UInt8) :=
  ((Utf8.encode version).splitOn Lines.lineFeed).tail.findSome? (·.dropPrefix? identLabel)

theorem dropPrefix?_versionLabel (rest : List UInt8) :
    (versionLabel ++ rest).dropPrefix? identLabel = none := rfl

/-- A reader finds the identifier unless a line of the version string imitates it. -/
theorem find_text (version : String) :
    Lines.find identLabel (Utf8.encode (text version)) =
      some ((imitation version).getD (Utf8.encode (Ident.ofVersion version).text)) := by
  obtain ⟨first, rest, split⟩ := Lines.exists_splitOn (Utf8.encode version)
  rw [Lines.find, read_text, lines, imitation, split, List.modifyHead_cons, List.tail_cons,
    List.cons_append, List.findSome?_cons_of_isNone]
  -- the label of the version string keeps the first line from being taken
  · rw [List.findSome?_append]
    cases rest.findSome? (·.dropPrefix? identLabel) with
    | none => simp [Lines.dropPrefix?_append]
    | some found => rfl
  · rw [dropPrefix?_versionLabel]
    rfl

theorem imitation_of_unbroken {version : String} (unbroken : '\n' ∉ version.toList) :
    imitation version = none := by
  rw [imitation, List.splitOn_eq_singleton (mt Lines.lineFeed_mem_encode_iff.mp unbroken)]
  rfl

/-- Any text of one line can be put in the place of the identifier. -/
theorem imitation_of_forged {before forged : String} (one : '\n' ∉ before.toList)
    (line : '\n' ∉ forged.toList) :
    imitation (before ++ "\nProto identifier: " ++ forged) = some (Utf8.encode forged) := by
  have label : Utf8.encode "\nProto identifier: " = Lines.lineFeed :: identLabel := rfl
  have last : Lines.lineFeed ∉ identLabel ++ Utf8.encode forged := by
    rw [List.mem_append, not_or]
    exact ⟨lineFeed_not_mem_identLabel, mt Lines.lineFeed_mem_encode_iff.mp line⟩
  rw [imitation, Utf8.encode_append, Utf8.encode_append, label, List.append_assoc,
    List.cons_append,
    List.splitOn_append_cons_self_of_not_mem (mt Lines.lineFeed_mem_encode_iff.mp one),
    List.splitOn_eq_singleton last, List.tail_cons, List.findSome?_singleton,
    Lines.dropPrefix?_append]

/-- What is documented of the output on a version string: it is two lines, and what a reader finds
behind the label of the identifier is the identifier. -/
structure Documented (version : String) (out : List UInt8) : Prop where
  written : out = Lines.write [versionLabel ++ Utf8.encode version,
    identLabel ++ Utf8.encode (Ident.textOf version).value]
  read : Lines.read out = [versionLabel ++ Utf8.encode version,
    identLabel ++ Utf8.encode (Ident.textOf version).value]
  found : Lines.find identLabel out = some (Utf8.encode (Ident.textOf version).value)

theorem documented_iff {version : String} :
    Documented version (Utf8.encode (text version)) ↔ '\n' ∉ version.toList := by
  constructor
  · intro documented
    have two := congrArg List.length documented.read
    rw [read_text, length_lines] at two
    exact List.count_eq_zero.mp (Nat.add_left_cancel two)
  · intro unbroken
    have two := lines_of_unbroken unbroken
    refine ⟨?_, ?_, ?_⟩
    · rw [encode_text_eq_write, two, Ident.value_textOf]
    · rw [read_text, two, Ident.value_textOf]
    · rw [find_text, imitation_of_unbroken unbroken, Ident.value_textOf, Option.getD_none]

end Report

/-- Of a run that succeeds, standard output is the lines of the report, each ended by a line feed.
They are one more than documented for each line feed in the version string, and the identifier is
in the last. What is documented holds exactly if there is no line feed; a reader is otherwise
misled by a line of the version string that imitates the label of the identifier. -/
theorem stdout_by_lines (filter : Event → Bool) {argv : List (List UInt8)}
    (succeeded : (runProcess filter argv).status = 0) :
    ∃ version, (Invocation.ofArguments argv).value = .ok { version } ∧
      (runProcess filter argv).stdout = Lines.write (Report.lines version) ∧
      Lines.read (runProcess filter argv).stdout = Report.lines version ∧
      (Report.lines version).length = 2 + version.toList.count '\n' ∧
      (Report.lines version).getLast? =
        some (Report.identLabel ++ Utf8.encode (Ident.textOf version).value) ∧
      (Report.Documented version (runProcess filter argv).stdout ↔ '\n' ∉ version.toList) ∧
      Lines.find Report.identLabel (runProcess filter argv).stdout =
        some ((Report.imitation version).getD (Utf8.encode (Ident.textOf version).value)) := by
  cases asked : Invocation.ofFirst argv[1]? with
  | error e =>
    rw [(runProcess_of_error filter asked).1] at succeeded
    exact absurd succeeded (by decide)
  | ok invocation =>
    obtain ⟨version⟩ := invocation
    rw [(runProcess_of_ok filter asked).2.1]
    refine ⟨version, ?_, Report.encode_text_eq_write version, Report.read_text version,
      Report.length_lines version, ?_, Report.documented_iff, ?_⟩
    · rw [Invocation.value_ofArguments, asked]
    · rw [Report.lines, List.getLast?_concat, Ident.value_textOf]
    · rw [Report.find_text, Ident.value_textOf]

/-- The report on the default version string, and one on a version string that ends in a line
feed. -/
theorem stdout_of_line_feed :
    ((runProcess defaultFilter []).status = 0 ∧
      Report.Documented defaultVersion (runProcess defaultFilter []).stdout) ∧
    ((runProcess defaultFilter [[], [0x31, 0x0A]]).status = 0 ∧
      (Lines.read (runProcess defaultFilter [[], [0x31, 0x0A]]).stdout).length = 3) := by
  have absent : Invocation.ofFirst ([] : List (List UInt8))[1]? = .ok {} := ofFirst_none
  have asked : Invocation.ofFirst ([[], [0x31, 0x0A]] : List (List UInt8))[1]? =
      .ok { version := "1\n" } := by
    decide +kernel
  have alone := (runProcess_of_ok defaultFilter absent).1
  have ended := (runProcess_of_ok defaultFilter asked).1
  refine ⟨⟨alone, ?_⟩, ended, ?_⟩
  · obtain ⟨version, same, -, -, -, -, documented, -⟩ := stdout_by_lines defaultFilter alone
    cases same
    exact documented.mpr (by decide)
  · obtain ⟨version, same, -, read, length, -⟩ := stdout_by_lines defaultFilter ended
    rw [Invocation.value_ofArguments] at same
    cases asked.symm.trans same
    rw [read, length]
    decide

/-- A version string with a line that imitates the label of the identifier. -/
def forgedVersion : String := "1.0\nProto identifier: 0xdeadbeef"

/-- The report on it is three lines, and a reader finds another identifier than the one of the
version string. -/
theorem stdout_of_forgedVersion :
    (Invocation.ofArguments [Utf8.encode "protoid", Utf8.encode forgedVersion]).value =
      .ok { version := forgedVersion } ∧
    (runProcess defaultFilter [Utf8.encode "protoid", Utf8.encode forgedVersion]).status = 0 ∧
    ¬ Report.Documented forgedVersion
      (runProcess defaultFilter [Utf8.encode "protoid", Utf8.encode forgedVersion]).stdout ∧
    (Lines.read (runProcess defaultFilter
      [Utf8.encode "protoid", Utf8.encode forgedVersion]).stdout).length = 3 ∧
    Lines.find Report.identLabel (runProcess defaultFilter
      [Utf8.encode "protoid", Utf8.encode forgedVersion]).stdout =
        some (Utf8.encode "0xdeadbeef") ∧
    (Ident.textOf forgedVersion).value ≠ "0xdeadbeef" := by
  have asked : Invocation.ofFirst [Utf8.encode "protoid", Utf8.encode forgedVersion][1]? =
      .ok { version := forgedVersion } := by
    rw [List.getElem?_cons_succ, List.getElem?_cons_zero, Invocation.ofFirst, versionText_encode]
    rfl
  have split : forgedVersion = "1.0" ++ "\nProto identifier: " ++ "0xdeadbeef" := by
    decide +kernel
  have forged : Report.imitation forgedVersion = some (Utf8.encode "0xdeadbeef") := by
    rw [split]
    exact Report.imitation_of_forged (by decide) (by decide)
  obtain ⟨status, stdout, -⟩ := runProcess_of_ok defaultFilter asked
  rw [stdout, Report.documented_iff, Report.read_text, Report.length_lines, Report.find_text,
    forged]
  refine ⟨?_, status, ?_, ?_, rfl, ?_⟩
  · rw [Invocation.value_ofArguments, asked]
  · decide
  · decide
  · decide +kernel

end ProtocolIdent
