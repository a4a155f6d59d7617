import ProtocolIdent.Format.Spec

/-!
# Templates

A template is a text in which placeholders stand between braces. A placeholder is empty, or a
colon with, in this order and each optional: a fill character before an alignment mark, a sign,
the mark for the alternate form, a zero flag, a width, a point with a precision, and the form.
The precision of a whole number means nothing. A brace that is text is written twice.
-/
namespace ProtocolIdent.Format

/-- The alignment that a mark stands for. -/
def Align.ofMark? : Char → Option Align
  | '<' => some .left
  | '^' => some .centre
  | '>' => some .right
  | _ => none

/-- The form that the end of a placeholder names. -/
def Form.ofName? : List Char → Option Form
  | [] => some .text
  | ['x'] => some (.number .lowerHex)
  | ['X'] => some (.number .upperHex)
  | ['?'] => some (.structural .decimal)
  | ['x', '?'] => some (.structural .lowerHex)
  | ['X', '?'] => some (.structural .upperHex)
  | _ => none

namespace Spec

/-- Reads fill and alignment. -/
def readAlign (spec : Spec) : List Char → Spec × List Char
  | c :: d :: rest =>
    match Align.ofMark? d, Align.ofMark? c with
    | some align, _ => ({ spec with fill := c, align := some align }, rest)
    | none, some align => ({ spec with align := some align }, d :: rest)
    | none, none => (spec, c :: d :: rest)
  | [c] =>
    match Align.ofMark? c with
    | some align => ({ spec with align := some align }, [])
    | none => (spec, [c])
  | [] => (spec, [])

/-- A minus sign is read and asks for nothing. -/
def readSign (spec : Spec) : List Char → Spec × List Char
  | '+' :: rest => ({ spec with plus := true }, rest)
  | '-' :: rest => (spec, rest)
  | cs => (spec, cs)

def readAlternate (spec : Spec) : List Char → Spec × List Char
  | '#' :: rest => ({ spec with alternate := true }, rest)
  | cs => (spec, cs)

def readZero (spec : Spec) : List Char → Spec × List Char
  | '0' :: rest => ({ spec with zero := true }, rest)
  | cs => (spec, cs)

/-- Without digits the width is zero. -/
def readWidth (spec : Spec) (cs : List Char) : Spec × List Char :=
  let ds := (cs.takeWhile Char.isDigit).map fun c => c.toNat - 48
  ({ spec with width := Digits.value 10 ds }, cs.dropWhile Char.isDigit)

def skipPrecision : List Char → List Char
  | '.' :: rest => rest.dropWhile Char.isDigit
  | cs => cs

/-- What stands between the braces of a placeholder. -/
def ofBody? : List Char → Option Spec
  | [] => some {}
  | ':' :: cs =>
    let (spec, cs) := readAlign {} cs
    let (spec, cs) := readSign spec cs
    let (spec, cs) := readAlternate spec cs
    let (spec, cs) := readZero spec cs
    let (spec, cs) := readWidth spec cs
    (Form.ofName? (skipPrecision cs)).map fun form => { spec with form }
  | _ => none

end Spec

/-- A character that stands for itself, or a placeholder. -/
inductive Segment where
  | verbatim (c : Char)
  | placeholder (spec : Spec)
  deriving DecidableEq, Repr

/-- Reads segments; of a placeholder under way the characters so far are held, latest first. -/
def readSegments : Option (List Char) → List Char → Option (List Segment)
  | none, [] => some []
  | some _, [] => none
  | none, '\x7b' :: '\x7b' :: cs => (readSegments none cs).map (.verbatim '\x7b' :: ·)
  | none, '\x7d' :: '\x7d' :: cs => (readSegments none cs).map (.verbatim '\x7d' :: ·)
  | none, '\x7b' :: cs => readSegments (some []) cs
  | none, '\x7d' :: _ => none
  | none, c :: cs => (readSegments none cs).map (.verbatim c :: ·)
  | some body, '\x7d' :: cs =>
    match Spec.ofBody? body.reverse with
    | some spec => (readSegments none cs).map (.placeholder spec :: ·)
    | none => none
  | some body, c :: cs => readSegments (some (c :: body)) cs

structure Template where
  segments : List Segment
  deriving DecidableEq, Repr

namespace Template

def ofText? (s : String) : Option Template :=
  (readSegments none s.toList).map Template.mk

/-- Writes an identifier into every placeholder. -/
def render (template : Template) (id : Ident) : String :=
  String.join <| template.segments.map fun
    | .verbatim c => String.singleton c
    | .placeholder spec => spec.render id

end Template

end ProtocolIdent.Format
