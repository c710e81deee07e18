import StackMachine.Fault
import StackMachine.Log
import StackMachine.Program

/-!
# The machine

The machine executes the items of a program one after the other; there are no jumps. An instruction maps the stack to a
new stack or fails, and a failing instruction still tells what it leaves on the stack. A run ends at the first `HALT`,
at the end of the program, or at a fault; it succeeds if exactly one integer is left.

Stacks are lists with the top at the head.
-/

namespace StackMachine

/-- How an instruction fails: the cause, and the stack that is left. -/
structure Failure where
  cause : Cause
  stack : List Value
deriving DecidableEq

/-- What an instruction makes of a stack. -/
abbrev Effect := Except Failure (List Value)

namespace Effect

/-- The stack is too short; it stays as it is. -/
def underflow (op : Opcode) (needed : Nat) (stack : List Value) : Effect :=
  .error ⟨.underflow op needed stack.length, stack⟩

/-- An integer goes on the stack if it is a word. -/
def pushWord (op : Opcode) (n : Int) (rest : List Value) : Effect :=
  if Word.fits n then .ok (.int n :: rest) else .error ⟨.overflow op n, rest⟩

/-- Two integers are taken off the stack and handed to `f` with the rest, the deeper one first. A text among them is an
error, and of two texts the deeper one is to blame. -/
def onIntegers (op : Opcode) (f : Int → Int → List Value → Effect) : List Value → Effect
  | .int b :: .int a :: rest => f a b rest
  | .text s :: .int _ :: rest => .error ⟨.textOperand op s, rest⟩
  | _ :: .text s :: rest => .error ⟨.textOperand op s, rest⟩
  | stack => underflow op 2 stack

/-- The integer quotient of two integers, rounded down. -/
def divide (a b : Int) (rest : List Value) : Effect :=
  if b = 0 then .error ⟨.divisionByZero a, rest⟩ else pushWord .div (Int.fdiv a b) rest

/-- A text is read as a numeral. A numeral with more significant digits than any word has is not read at all. -/
def parse (text : String) (rest : List Value) : Effect :=
  if Decimal.isNumeral text.toList then
    let digits := Decimal.significant text.toList
    if Word.maxDigits < digits.length then .error ⟨.longNumeral digits.length, rest⟩
    else pushWord .toInt (Decimal.value digits) rest
  else .error ⟨.notNumeral text, rest⟩

end Effect

open Effect in
/-- What an instruction makes of a stack. -/
def Instruction.exec (i : Instruction) (stack : List Value) : Effect :=
  match i.opcode with
  | .halt => .ok stack
  | .pushInt =>
    match i.operand.integer? with
    | some n => pushWord .pushInt n stack
    | none => .error ⟨.wrongOperand .pushInt i.operand, stack⟩
  | .pushStr =>
    match i.operand with
    | .text s => .ok (.text s :: stack)
    | operand => .error ⟨.wrongOperand .pushStr operand, stack⟩
  | .pop =>
    match stack with
    | _ :: rest => .ok rest
    | [] => underflow .pop 1 stack
  | .add => onIntegers .add (fun a b => pushWord .add (a + b)) stack
  | .sub => onIntegers .sub (fun a b => pushWord .sub (a - b)) stack
  | .mul => onIntegers .mul (fun a b => pushWord .mul (a * b)) stack
  | .div => onIntegers .div divide stack
  | .concat =>
    match stack with
    | right :: left :: rest => .ok (.text (left.toText ++ right.toText) :: rest)
    | _ => underflow .concat 2 stack
  | .toInt =>
    match stack with
    | .text s :: rest => parse s rest
    | .int n :: rest => .error ⟨.integerOperand .toInt n, rest⟩
    | [] => underflow .toInt 1 stack
  | .dup =>
    match stack with
    | top :: rest => .ok (top :: top :: rest)
    | [] => underflow .dup 1 stack
  | .swap =>
    match stack with
    | b :: a :: rest => .ok (a :: b :: rest)
    | _ => underflow .swap 2 stack

/-- The state of a run between two items. -/
structure State where
  /-- The position of the next item. -/
  pc : Nat
  /-- How many instructions were executed. -/
  steps : Nat
  /-- The stack, the top at the head. -/
  stack : List Value
  /-- The greatest depth of the stack after an instruction. -/
  maxDepth : Nat
  /-- The position of the `HALT` that ended the run. -/
  haltIndex : Option Nat
deriving DecidableEq

/-- What the next item makes of a state. -/
inductive Progress where
  | moved (s : State)
  | faulted (f : Fault) (s : State)
deriving DecidableEq

namespace State

/-- The state before the first item. -/
def start : State := ⟨0, 0, [], 0, none⟩

/-- The state after the instruction was taken up and before it has done anything. -/
def advance (s : State) : State :=
  { s with pc := s.pc + 1, steps := s.steps + 1 }

/-- The state after the instruction has left `stack` behind. -/
def complete (s : State) (op : Opcode) (stack : List Value) : State :=
  { s.advance with
    stack := stack
    maxDepth := max s.maxDepth stack.length
    haltIndex := if op = .halt then some s.pc else s.haltIndex }

/-- Executes one item. Items that are no instructions, and operands where none belong, are rejected before anything is
counted. -/
def step (s : State) : Item → Progress
  | .instruction i =>
    if i.opcode.operandKind = .none ∧ i.operand ≠ .null then
      .faulted ⟨.strayOperand i.opcode i.operand, s.pc, some i.opcode⟩ s
    else
      match i.exec s.stack with
      | .ok stack => .moved (s.complete i.opcode stack)
      | .error failure =>
        .faulted ⟨failure.cause, s.pc, some i.opcode⟩ { s.advance with stack := failure.stack }
  | item => .faulted ⟨.unknownItem item, s.pc, none⟩ s

end State

/-- An executed instruction, as a trace shows it. -/
structure Event where
  index : Nat
  item : Item
  /-- The stack after the instruction. -/
  stack : List Value
deriving DecidableEq

/-- The event on one line. -/
def Event.message (e : Event) : String :=
  s!"{e.index}: {e.item.plain} -> {describeStack e.stack}"

/-- How the execution of the items ends. -/
inductive Ending where
  | stopped (s : State)
  | faulted (f : Fault) (s : State)
deriving DecidableEq

/-- Executes items until `HALT`, a fault, or their end; each executed instruction leaves an event. -/
def State.walk (s : State) : List Item → List Event × Ending
  | [] => ([], .stopped s)
  | item :: rest =>
    match s.step item with
    | .faulted f t => ([], .faulted f t)
    | .moved t =>
      let event := ⟨s.pc, item, t.stack⟩
      if t.haltIndex.isSome then ([event], .stopped t)
      else
        let others := t.walk rest
        (event :: others.1, others.2)

/-- How a run ends. -/
inductive Outcome where
  /-- The run succeeded with an integer, in the given last state. -/
  | halted (value : Int) (s : State)
  /-- The run failed; the state is the one that the fault left. -/
  | faulted (f : Fault) (s : State)
  /-- The run failed, and its report would hold an integer too long to be written. -/
  | unwritable
deriving DecidableEq

/-- How far an execution has come. -/
inductive Status where
  | running
  | halted
  | faulted
deriving DecidableEq

/-- The name of the status, as results and faults give it. -/
def Status.name : Status → String
  | running => "running"
  | halted => "halted"
  | faulted => "faulted"

/-- The status in which the execution is left. It changes with a result or a fault only. -/
def Outcome.status : Outcome → Status
  | .halted .. => .halted
  | .faulted .. => .faulted
  | .unwritable => .running

/-- A fault as the outcome of a run. -/
def Outcome.ofFault (f : Fault) (s : State) : Outcome :=
  if f.cause.isWritable then .faulted f s else .unwritable

/-- The outcome of a run of the program `name` that stopped in the given state: its one integer, or a fault. -/
def State.outcome (name : String) (s : State) : Outcome :=
  let opcode := s.haltIndex.map fun _ => Opcode.halt
  let index := s.haltIndex.getD s.pc
  match s.stack with
  | [.int n] => .halted n s
  | [.text text] => .ofFault ⟨.finalText text, index, opcode⟩ s
  | stack => .ofFault ⟨.finalDepth name stack, index, opcode⟩ s

/-- The outcome of a run of the program `name`, from the way the execution of its items ended. -/
def Ending.outcome (name : String) : Ending → Outcome
  | .stopped s => s.outcome name
  | .faulted f s => .ofFault f s

/-- A run: what was executed, and how it ended. -/
structure Run where
  events : List Event
  outcome : Outcome

/-- Runs a program on an empty stack. -/
def Program.run (p : Program) : Run :=
  let walked := State.start.walk p.items
  ⟨walked.1, walked.2.outcome p.name⟩

/-- The outcome of running a program. -/
def Program.outcome (p : Program) : Outcome :=
  p.run.outcome

/-- The trace of a run, one message for each executed instruction. -/
def Program.trace (p : Program) : List String :=
  p.run.events.map Event.message

/-- The records that a run of the program `name` leaves: one for a fault, none otherwise. -/
def Outcome.logs (name : String) : Outcome → List LogRecord
  | .faulted f s =>
    [⟨.debug, .machine, s!"Program '{name}' faulted after {s.steps} steps: {f.cause.message}"⟩]
  | _ => []

end StackMachine
