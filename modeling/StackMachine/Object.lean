import StackMachine.Binary64
import StackMachine.Opcode

/-!
# Objects

Anything at all may stand in a program where a value, an operation code or an instruction should stand. An object is what
is neither missing nor a truth value, a plain integer or a plain text: a floating-point number, an operation in the
place of a value, or something else.

* An operation is also an integer, namely its number, and it takes part in a computation as such. But it shows in its own
  way, with its name.
* Nothing is known of another object but how it shows: by its representation, as bare text, and by a name that it may
  have. There is no restriction on these texts, which may have several lines; a program that stands among the items of
  another one, for example, is represented by a paragraph (`Program.asObject`).

Not covered are other objects that are integers or texts, or equal to some, and yet show differently; those that cannot
be shown, or not always in the same way; those that cannot be looked up in a table; and those that are no instructions but
have an operation code. Two other objects are taken to be equal if they show alike.
-/

namespace StackMachine

/-- How an object shows. -/
structure Object.Display where
  /-- The representation, as messages and listings give it. -/
  representation : String
  /-- The object as bare text. -/
  text : String
  /-- The name by which the object goes in the place of an operation code. -/
  name? : Option String := none
deriving DecidableEq

/-- The kinds of objects. -/
inductive Object.Kind where
  /-- A floating-point number. -/
  | real (x : Binary64)
  /-- An operation in the place of a value. -/
  | operation (op : Opcode)
  /-- Any other object. -/
  | other (display : Object.Display)
deriving DecidableEq

/-- What stands in a program without being missing, a truth value, a plain integer or a plain text. -/
structure Object where
  kind : Object.Kind
deriving DecidableEq

/-- A numeral stands for the floating-point number that it denotes. -/
instance : Coe String Object.Kind := ⟨fun numeral => .real ⟨numeral⟩⟩

namespace Object

/-- An operation in the place of a value. -/
def ofOpcode (op : Opcode) : Object := ⟨.operation op⟩

/-- How an object shows. A number shows as its numeral; an operation is represented with its name and its number, and
is its number as bare text. -/
def display (x : Object) : Display :=
  match x.kind with
  | .real number => ⟨number.numeral, number.numeral, none⟩
  | .operation op => ⟨s!"<Opcode.{op.name}: {op.number}>", toString op.number, some op.name⟩
  | .other display => display

/-- The representation of the object, which is the numeral of a number. -/
def numeral (x : Object) : String := x.display.representation

/-- The integer that the object is. -/
def integer? (x : Object) : Option Int :=
  match x.kind with
  | .operation op => some op.number
  | _ => none

/-- The number that the object counts as in comparisons. -/
def number? (x : Object) : Option Binary64.Magnitude :=
  match x.kind with
  | .real number => some number.magnitude
  | .operation op => some (.finite op.number)
  | .other _ => none

end Object

end StackMachine
