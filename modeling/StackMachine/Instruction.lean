import StackMachine.Literal
import StackMachine.Opcode

/-!
# Instructions

A program is a sequence of items. An item should be an instruction; it may also carry an operation code that is none
of the machine's, or be a literal that is no instruction at all. Malformed items are part of the domain: the machine
and the checker say what is wrong with them. What can stand in them is told in `StackMachine.Object`.
-/

namespace StackMachine

/-- An operation with its operand; `Literal.null` stands for no operand. -/
structure Instruction where
  opcode : Opcode
  operand : Literal := .null
deriving DecidableEq

/-- One element of a program. -/
inductive Item where
  /-- An instruction of the machine, its operand not yet checked. -/
  | instruction (i : Instruction)
  /-- An instruction whose code is not an operation, even if it is equal to the number of one. (An operation in the place
  of the code makes an instruction of the machine, so it does not stand here.) -/
  | unknown (code operand : Literal)
  /-- A literal in the place of an instruction: a plain value or any other object. -/
  | stray (value : Literal)
deriving DecidableEq

/-- An operation code followed by the operand, if there is one. -/
def withOperand (code : String) : Literal → String
  | .null => code
  | operand => s!"{code} {operand.shown}"

namespace Instruction

/-- The instruction as it is written in listings: the name of the operation, then the operand. -/
def text (i : Instruction) : String :=
  withOperand i.opcode.name i.operand

/-- Whether the instruction can be written out. -/
def isWritable (i : Instruction) : Bool :=
  i.operand.isWritable

/-- Stops the run. -/
def halt : Instruction := ⟨.halt, .null⟩

/-- Puts an integer on the stack; the operand is not checked. -/
def pushInt (operand : Literal) : Instruction := ⟨.pushInt, operand⟩

/-- Puts a text on the stack; the operand is not checked. -/
def pushStr (operand : Literal) : Instruction := ⟨.pushStr, operand⟩

/-- Drops the top of the stack. -/
def pop : Instruction := ⟨.pop, .null⟩

/-- Adds the two topmost values. -/
def add : Instruction := ⟨.add, .null⟩

/-- Subtracts the topmost value from the one below it. -/
def sub : Instruction := ⟨.sub, .null⟩

/-- Multiplies the two topmost values. -/
def mul : Instruction := ⟨.mul, .null⟩

/-- Divides the value below the top by the topmost one. -/
def div : Instruction := ⟨.div, .null⟩

/-- Joins the two topmost values to one text. -/
def concat : Instruction := ⟨.concat, .null⟩

/-- Reads the text on top of the stack as a numeral. -/
def toInt : Instruction := ⟨.toInt, .null⟩

/-- Repeats the top of the stack. -/
def dup : Instruction := ⟨.dup, .null⟩

/-- Exchanges the two topmost values. -/
def swap : Instruction := ⟨.swap, .null⟩

end Instruction

namespace Item

/-- The item as bare text: a stray text stands for itself. -/
def plain : Item → String
  | instruction i => i.text
  | unknown code operand => withOperand code.asCode operand
  | stray value => value.plain

/-- The item as it is shown in messages: a stray text is quoted. -/
def shown : Item → String
  | stray value => value.shown
  | item => item.plain

/-- Whether the item can be written out. -/
def isWritable : Item → Bool
  | instruction i => i.isWritable
  | unknown code operand => code.isWritable && operand.isWritable
  | stray value => value.isWritable

/-- The item as it is shown in messages, if it can be written out. -/
def shown? (item : Item) : Option String :=
  if item.isWritable then some item.shown else none

/-- The operation code of an item as a literal, that of an operation being its number. -/
def code? : Item → Option (Literal × Literal)
  | instruction i => some (.int i.opcode.number, i.operand)
  | unknown code operand => some (code, operand)
  | stray _ => none

/-- Equality of items: codes and operands are compared as literals, so an operation is the same as its number. A stray
literal is the same as an equal stray literal only. -/
def same (a b : Item) : Bool :=
  match a, b with
  | stray v, stray w => v.same w
  | _, _ =>
    match a.code?, b.code? with
    | some (c, v), some (d, w) => c.same d && v.same w
    | _, _ => false

/-- Equality of sequences of items: the same length, and the same items one by one. -/
def sameAll : List Item → List Item → Bool
  | [], [] => true
  | a :: as, b :: bs => a.same b && sameAll as bs
  | _, _ => false

end Item

end StackMachine
