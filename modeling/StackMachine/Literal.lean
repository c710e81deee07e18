import StackMachine.Object
import StackMachine.Text.Quote

/-!
# Literals

A literal is a value as it stands in a program: the operand of an instruction, an operation code that is none of the
machine's, or something that is no instruction at all. Only integers and texts are of use to the machine; the others
occur in malformed programs and have to be shown and compared. A text is a sequence of Unicode scalar values: one that
holds half of a surrogate pair is not covered, and neither are the objects that `StackMachine.Object` leaves out.
-/

namespace StackMachine

/-- A value as it stands in a program. -/
inductive Literal where
  | null
  | bool (b : Bool)
  /-- A plain integer. -/
  | int (n : Int)
  /-- Anything that is no plain value, among it the operations, which are integers too. -/
  | object (x : Object)
  /-- A plain text. -/
  | text (s : String)
deriving DecidableEq

namespace Literal

/-- An object that is given by its numeral, such as `real ⟨"1.5"⟩`. As a pattern it stands for any object. -/
@[match_pattern]
def real (x : Object) : Literal := .object x

/-- The literal as bare text: a text stands for itself. -/
def plain : Literal → String
  | null => "None"
  | bool true => "True"
  | bool false => "False"
  | int n => toString n
  | object x => x.display.text
  | text s => s

/-- The literal as it is shown in messages: a text is quoted. -/
def shown : Literal → String
  | text s => Text.quote s
  | object x => x.display.representation
  | literal => literal.plain

/-- The literal in the place of an operation code: an object goes by its name if it has one. -/
def asCode : Literal → String
  | object x => x.display.name?.getD x.display.representation
  | literal => literal.shown

/-- The integer that the literal is; a truth value is none. -/
def integer? : Literal → Option Int
  | int n => some n
  | object x => x.integer?
  | _ => none

@[simp] theorem integer?_int (n : Int) : (int n).integer? = some n := rfl

/-- Whether the literal can be written out at all. -/
def isWritable : Literal → Bool
  | int n => Decimal.isWritable n
  | _ => true

/-- The number that a literal counts as in comparisons: truth values count as one and zero. -/
def number? : Literal → Option Binary64.Magnitude
  | bool b => some (.finite (if b then 1 else 0))
  | int n => some (.finite n)
  | object x => x.number?
  | null | text _ => none

/-- Equality of literals: numbers are compared by value whatever their kind, everything else as it is. -/
def same (a b : Literal) : Bool :=
  match a.number?, b.number? with
  | some x, some y => x.same y
  | none, none => a == b
  | _, _ => false

end Literal

end StackMachine
