import StackMachine.Program
import StackMachine.Word

/-!
# Validation

A program is checked without running it, in three passes. The first pass demands that there are items and that all of
them are instructions, the second that every instruction has the operand it carries, and the third follows the depth
of the stack up to the first `HALT` or to the end: it must never be less than an operation takes, it must be one at
the end, and nothing may stand behind `HALT`. Each pass rejects the program at the first item that is at fault.
-/

namespace StackMachine

namespace Validation

/-- The kinds of violation. -/
inductive Kind where
  | emptyProgram
  | invalidOpcode
  | invalidOperand
  | operandOutOfRange
  | stackUnderflow
  | badFinalDepth
  | unreachableCode
deriving DecidableEq

namespace Kind

/-- All kinds. -/
def all : List Kind :=
  [emptyProgram, invalidOpcode, invalidOperand, operandOutOfRange, stackUnderflow, badFinalDepth, unreachableCode]

/-- The label of the kind, as it is written in messages. -/
def label : Kind → String
  | emptyProgram => "empty_program"
  | invalidOpcode => "invalid_opcode"
  | invalidOperand => "invalid_operand"
  | operandOutOfRange => "operand_out_of_range"
  | stackUnderflow => "stack_underflow"
  | badFinalDepth => "bad_final_depth"
  | unreachableCode => "unreachable_code"

/-- The kind with a label. -/
def ofLabel? (label : String) : Option Kind :=
  all.find? (·.label == label)

end Kind

/-- What is wrong with a program. -/
inductive Violation where
  /-- The program has no items. -/
  | emptyProgram (name : String)
  /-- An item is not an instruction of the machine. -/
  | unknownItem (item : Item)
  /-- An operation takes no operand and has one. -/
  | strayOperand (op : Opcode) (operand : Literal)
  /-- An operand is not of the kind that the operation carries, or is missing. -/
  | wrongOperand (op : Opcode) (operand : Literal)
  /-- An integer operand is not a word. -/
  | outOfRange (n : Int)
  /-- An operation takes more values than the stack holds. -/
  | underflow (depth needed : Nat)
  /-- The stack does not hold one value at `HALT`. -/
  | depthAtHalt (depth : Nat)
  /-- The stack does not hold one value at the end of the program. -/
  | depthAtEnd (depth : Nat)
  /-- Items stand behind `HALT`. -/
  | unreachable (count : Nat)
deriving DecidableEq

namespace Violation

/-- The kind of a violation. -/
def kind : Violation → Kind
  | emptyProgram _ => .emptyProgram
  | unknownItem _ => .invalidOpcode
  | strayOperand .. | wrongOperand .. => .invalidOperand
  | outOfRange _ => .operandOutOfRange
  | underflow .. => .stackUnderflow
  | depthAtHalt _ | depthAtEnd _ => .badFinalDepth
  | unreachable _ => .unreachableCode

/-- The message. -/
def message : Violation → String
  | emptyProgram name => s!"Program '{name}' has no instructions"
  | unknownItem item => s!"Invalid instruction: {item.shown}"
  | strayOperand op operand => s!"{op.name} takes no operand, got {operand.shown}"
  | wrongOperand op operand =>
    match op.operandKind with
    | .integer => s!"{op.name} requires an integer operand, got {operand.shown}"
    | _ => s!"{op.name} requires a text operand, got {operand.shown}"
  | outOfRange n => s!"Integer literal {n} does not fit in 64 bits"
  | underflow depth needed => s!"Stack underflow: depth={depth}, need={needed}"
  | depthAtHalt depth => s!"Stack holds {depth} values at HALT, expected exactly 1"
  | depthAtEnd depth => s!"Stack holds {depth} values at end of program, expected exactly 1"
  | unreachable count => s!"{count} instruction(s) follow HALT"

/-- Whether every number that the message shows can be written out. -/
def isWritable : Violation → Bool
  | unknownItem item => item.isWritable
  | strayOperand _ operand | wrongOperand _ operand => operand.isWritable
  | outOfRange n => Decimal.isWritable n
  | _ => true

end Violation

/-- A violation and its place. -/
structure Rejection where
  violation : Violation
  /-- The position of the item, or the number of items if the fault is at the end. -/
  index : Option Nat
  /-- The operation at that position, if the item is one. -/
  opcode : Option Opcode
deriving DecidableEq

/-- What is known of a program that was accepted. -/
structure Summary where
  /-- The position of the `HALT`, if the program has one. -/
  haltIndex : Option Nat
  /-- The greatest depth that the stack reaches. -/
  maxDepth : Nat
deriving DecidableEq

/-- A rejection as it is shown: the kind, the message, and the place. -/
structure Diagnosis where
  kind : Kind
  message : String
  index : Option Int
  opcode : Option Opcode
deriving DecidableEq

namespace Diagnosis

/-- The lines of the diagnosis. -/
def lines (d : Diagnosis) : List String :=
  s!"Bytecode validation error: {d.message}"
    :: ((d.index.toList.map fun i => s!"  at instruction {i}")
      ++ (d.opcode.toList.map fun op => s!"  opcode: {op.name}"))

/-- The diagnosis as text. -/
def text (d : Diagnosis) : String :=
  "\n".intercalate d.lines

/-- Whether the position can be written out. -/
def isWritable (d : Diagnosis) : Bool :=
  match d.index with
  | none => true
  | some i => Decimal.isWritable i

/-- The diagnosis as text, if its position can be written out. -/
def text? (d : Diagnosis) : Option String :=
  if d.isWritable then some d.text else none

end Diagnosis

/-- The diagnosis of a rejection. -/
def Rejection.diagnosis (r : Rejection) : Diagnosis :=
  ⟨r.violation.kind, r.violation.message, r.index.map Int.ofNat, r.opcode⟩

/-- First pass: the instructions of a program, whose positions start at `index`, if all items are instructions. -/
def instructionsFrom (index : Nat) : List Item → Except Rejection (List Instruction)
  | [] => .ok []
  | .instruction i :: rest => (instructionsFrom (index + 1) rest).map (i :: ·)
  | item :: _ => .error ⟨.unknownItem item, some index, none⟩

/-- What is wrong with the operand of an instruction, if anything is. -/
def operandViolation? (i : Instruction) : Option Violation :=
  match i.opcode.operandKind, i.operand with
  | .none, .null => none
  | .none, operand => some (.strayOperand i.opcode operand)
  | .integer, operand =>
    match operand.integer? with
    | some n => if Word.fits n then none else some (.outOfRange n)
    | none => some (.wrongOperand i.opcode operand)
  | .text, .text _ => none
  | .text, operand => some (.wrongOperand i.opcode operand)

/-- Second pass: the first instruction whose operand is wrong; positions start at `index`. -/
def operandRejection? (index : Nat) : List Instruction → Option Rejection
  | [] => none
  | i :: rest =>
    match operandViolation? i with
    | some violation => some ⟨violation, some index, some i.opcode⟩
    | none => operandRejection? (index + 1) rest

/-- Third pass: follows the depth of the stack, which is `depth` at position `index` and was never above `maxDepth`. -/
def followDepth (index depth maxDepth : Nat) : List Instruction → Except Rejection Summary
  | [] => if depth = 1 then .ok ⟨none, maxDepth⟩ else .error ⟨.depthAtEnd depth, some index, none⟩
  | i :: rest =>
    if i.opcode = .halt then
      if depth = 1 then
        match rest with
        | [] => .ok ⟨some index, maxDepth⟩
        | next :: _ => .error ⟨.unreachable rest.length, some (index + 1), some next.opcode⟩
      else .error ⟨.depthAtHalt depth, some index, some .halt⟩
    else if depth < i.opcode.pops then
      .error ⟨.underflow depth i.opcode.pops, some index, some i.opcode⟩
    else
      let depth' := depth - i.opcode.pops + i.opcode.pushes
      followDepth (index + 1) depth' (max maxDepth depth') rest

end Validation

open Validation

/-- Checks a program in three passes. -/
def Program.check (p : Program) : Except Rejection Summary :=
  if p.items.isEmpty then .error ⟨.emptyProgram p.name, none, none⟩
  else
    match instructionsFrom 0 p.items with
    | .error rejection => .error rejection
    | .ok instructions =>
      match operandRejection? 0 instructions with
      | some rejection => .error rejection
      | none => followDepth 0 0 0 instructions

/-- What is said about a checked program. -/
inductive Verdict where
  | accepted (summary : Summary)
  | rejected (rejection : Rejection)
  /-- The program is at fault, and the message would hold an integer too long to be written. -/
  | unwritable
deriving DecidableEq

/-- The verdict on a program. -/
def Program.validate (p : Program) : Verdict :=
  match p.check with
  | .ok summary => .accepted summary
  | .error rejection => if rejection.violation.isWritable then .rejected rejection else .unwritable

end StackMachine
