/-!
# Operation codes

Each operation has a name, a number, the kind of operand it carries, and its effect on the stack: how many values it
takes off and how many it puts back.
-/

namespace StackMachine

/-- What an operation carries besides its code. -/
inductive OperandKind where
  | none
  | integer
  | text
deriving DecidableEq

/-- The operations of the machine. -/
inductive Opcode where
  | halt
  | pushInt
  | pushStr
  | pop
  | add
  | sub
  | mul
  | div
  | concat
  | toInt
  | dup
  | swap
deriving DecidableEq

/-- The name of the kind. -/
def OperandKind.name : OperandKind → String
  | none => "none"
  | integer => "integer"
  | text => "text"

namespace Opcode

/-- All operations in the order of their numbers. -/
def all : List Opcode :=
  [halt, pushInt, pushStr, pop, add, sub, mul, div, concat, toInt, dup, swap]

/-- The name of the operation as it is written in programs and messages. -/
def name : Opcode → String
  | halt => "HALT"
  | pushInt => "PUSH_INT"
  | pushStr => "PUSH_STR"
  | pop => "POP"
  | add => "ADD"
  | sub => "SUB"
  | mul => "MUL"
  | div => "DIV"
  | concat => "CONCAT"
  | toInt => "TO_INT"
  | dup => "DUP"
  | swap => "SWAP"

/-- The number of the operation. Ten and eleven are not in use. -/
def number : Opcode → Nat
  | halt => 0
  | pushInt => 1
  | pushStr => 2
  | pop => 3
  | add => 4
  | sub => 5
  | mul => 6
  | div => 7
  | concat => 8
  | toInt => 9
  | dup => 12
  | swap => 13

/-- The kind of operand that the operation carries. -/
def operandKind : Opcode → OperandKind
  | pushInt => .integer
  | pushStr => .text
  | _ => .none

/-- How many values the operation takes off the stack. -/
def pops : Opcode → Nat
  | halt | pushInt | pushStr => 0
  | pop | toInt | dup => 1
  | add | sub | mul | div | concat | swap => 2

/-- How many values the operation puts on the stack. -/
def pushes : Opcode → Nat
  | halt | pop => 0
  | pushInt | pushStr | add | sub | mul | div | concat | toInt => 1
  | dup | swap => 2

/-- The operation of a name. -/
def ofName? (name : String) : Option Opcode :=
  all.find? (·.name == name)

end Opcode

end StackMachine
