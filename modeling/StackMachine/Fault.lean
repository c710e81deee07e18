import StackMachine.Instruction
import StackMachine.Report
import StackMachine.Value

/-!
# Faults

A fault ends a run. It has a cause, and it names the item at which it arose. The wording of its report is a function of
the cause alone.
-/

namespace StackMachine

/-- What can go wrong in a run. -/
inductive Cause where
  /-- The item is not an instruction of the machine. -/
  | unknownItem (item : Item)
  /-- The operation takes no operand and has one. -/
  | strayOperand (op : Opcode) (operand : Literal)
  /-- The operand is not of the kind that the operation carries, or is missing. -/
  | wrongOperand (op : Opcode) (operand : Literal)
  /-- The operation needs more values than the stack holds. -/
  | underflow (op : Opcode) (needed depth : Nat)
  /-- A text stands where the operation needs an integer. -/
  | textOperand (op : Opcode) (text : String)
  /-- An integer stands where the operation needs a text. -/
  | integerOperand (op : Opcode) (n : Int)
  /-- The divisor is zero. -/
  | divisionByZero (dividend : Int)
  /-- The result is not a word. -/
  | overflow (op : Opcode) (result : Int)
  /-- The numeral has more significant digits than any word. -/
  | longNumeral (digits : Nat)
  /-- The text is not a numeral. -/
  | notNumeral (text : String)
  /-- The run ended with no value or with several values on the stack. -/
  | finalDepth (program : String) (stack : List Value)
  /-- The run ended with a text. -/
  | finalText (text : String)
deriving DecidableEq

namespace Cause

/-- The kind of report that the cause gives rise to. -/
def kind : Cause → Report.Kind
  | unknownItem _ | strayOperand .. | wrongOperand .. => .invalidInstruction
  | underflow .. => .stackUnderflow
  | textOperand .. | integerOperand .. | finalText _ => .typeMismatch
  | divisionByZero _ => .divisionByZero
  | overflow .. | longNumeral _ => .arithmeticOverflow
  | notNumeral _ => .parse
  | finalDepth .. => .incompleteProgram

/-- The message. -/
def message : Cause → String
  | unknownItem item => s!"Unknown instruction: {item.shown}"
  | strayOperand op _ => s!"{op.name} takes no operand"
  | wrongOperand op _ =>
    match op.operandKind with
    | .integer => s!"{op.name} requires an integer operand"
    | _ => s!"{op.name} requires a text operand"
  | underflow op needed depth =>
    let noun := if needed = 1 then "operand" else "operands"
    s!"{op.name} needs {needed} {noun}, stack has {depth}"
  | textOperand op _ => s!"{op.name} requires integer operands"
  | integerOperand op _ => s!"{op.name} requires a text operand"
  | divisionByZero _ => "Division by zero"
  | overflow op result => s!"{op.name} result {result} overflows 64-bit signed integer"
  | longNumeral digits => s!"TO_INT literal with {digits} significant digits overflows 64-bit signed integer"
  | notNumeral text => s!"Cannot parse {Text.quote text} as a non-negative base-10 integer"
  | finalDepth program stack => s!"Program '{program}' ended with {stack.length} values on the stack"
  | finalText _ => "Program result must be an integer"

/-- A value with the name of its type. -/
def typed (v : Value) : String :=
  s!"{v.describe} ({v.typeName})"

/-- What was found. -/
def received : Cause → Option String
  | strayOperand _ operand | wrongOperand _ operand => some operand.shown
  | textOperand _ text | finalText text => some (typed (.text text))
  | integerOperand _ n => some (typed (.int n))
  | notNumeral text => some (Text.quote text)
  | finalDepth _ stack => some s!"Stack: {describeStack stack}"
  | _ => none

/-- What would have been right. -/
def expected : Cause → Option String
  | textOperand .. | finalText _ => some "integer"
  | integerOperand .. => some "text"
  | notNumeral _ => some "One or more ASCII digits"
  | finalDepth .. => some "Exactly one value at HALT"
  | _ => none

/-- More about the circumstances. -/
def context : Cause → Option String
  | divisionByZero dividend => some s!"Dividend was {dividend}"
  | overflow .. | longNumeral _ => some s!"Valid range is {Word.least} to {Word.greatest}"
  | _ => none

/-- What to do about it. -/
def suggestion : Cause → Option String
  | finalText _ => some "End the program with TO_INT to convert text to an integer"
  | _ => none

/-- Whether every number that the report shows can be written out. -/
def isWritable : Cause → Bool
  | unknownItem item => item.isWritable
  | strayOperand _ operand | wrongOperand _ operand => operand.isWritable
  | integerOperand _ n => Decimal.isWritable n
  | divisionByZero dividend => Decimal.isWritable dividend
  | overflow _ result => Decimal.isWritable result
  | finalDepth _ stack => stack.all Value.isWritable
  | _ => true

end Cause

/-- A cause and its place. -/
structure Fault where
  cause : Cause
  /-- The position of the item, or the number of items if the run came to the end. -/
  index : Nat
  /-- The operation, unless the item is none or the run came to the end. -/
  opcode : Option Opcode
deriving DecidableEq

/-- The report of a fault. -/
def Fault.report (f : Fault) : Report where
  kind := f.cause.kind
  message := f.cause.message
  index := some f.index
  opcode := f.opcode.map Opcode.name
  received := f.cause.received
  expected := f.cause.expected
  context := f.cause.context
  suggestion := f.cause.suggestion

end StackMachine
