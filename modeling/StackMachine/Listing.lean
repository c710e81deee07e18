import StackMachine.Machine

/-!
# Listings

A listing shows a program line by line, each line with a remark on what the instruction does. The lines about a run
that follow it on request show the trace and the result.
-/

namespace StackMachine

/-- Why a program cannot be listed. -/
inductive Listing.Obstacle where
  /-- An item holds an integer too long to be written. -/
  | unwritable
  /-- An item is a literal that is no instruction at all, so there is nothing to remark on. -/
  | stray
deriving DecidableEq

/-- The operation whose number a literal equals. -/
def Opcode.ofNumber? (code : Literal) : Option Opcode :=
  all.find? fun op => code.same (.int op.number)

namespace Listing

/-- What the operation does to the stack. -/
def remark (op : Opcode) (operand : Literal) : String :=
  match op with
  | .halt => "Stop; top of stack is the result"
  | .pushInt => s!"Push integer {operand.plain}"
  | .pushStr => s!"Push text {operand.shown}"
  | .pop => "Discard top of stack"
  | .add => "Pop b, a; push a + b"
  | .sub => "Pop b, a; push a - b"
  | .mul => "Pop b, a; push a * b"
  | .div => "Pop b, a; push a // b"
  | .concat => "Pop right, left; push left + right as text"
  | .toInt => "Parse text on top of stack as an integer"
  | .dup => "Duplicate top of stack"
  | .swap => "Swap the two topmost values"

/-- The remark on an item, set off from what stands before it. A code that is equal to the number of an operation is
remarked on like the operation, any other code not at all. -/
def annotation (item : Item) : Except Obstacle String :=
  match item.code? with
  | none => .error .stray
  | some (code, operand) =>
    match Opcode.ofNumber? code with
    | some op => .ok s!"  ; {remark op operand}"
    | none => .ok ""

/-- A text filled up with blanks to 24 characters. -/
def padded (line : String) : String :=
  String.ofList (line.toList.rightpad 24 ' ')

/-- The lines for items, the text of each being given. -/
def body : List String → List Item → Except Obstacle (List String)
  | line :: lines, item :: items =>
    match annotation item with
    | .error obstacle => .error obstacle
    | .ok note => (body lines items).map (s!"  {padded line}{note}" :: ·)
  | _, _ => .ok []

/-- A line of 70 signs. -/
def rule : String :=
  String.ofList (List.replicate 70 '=')

end Listing

open Listing

/-- The listing of a program: a heading between two rules, then one line for each item. -/
def Program.listing (p : Program) : Except Obstacle (List String) :=
  if p.isWritable then
    (body p.disassemble p.items).map fun lines =>
      ["\n" ++ rule, s!"Program: {p.name}", s!"Instructions: {p.size}", rule] ++ lines
  else .error .unwritable

/-- The lines about a trace, if it is asked for. -/
def traceLines (trace : Bool) (events : List Event) : List String :=
  if trace then "" :: "Trace:" :: events.map fun e => s!"  {e.message}" else []

/-- The lines about a successful run: the trace on request, the result, and the steps. -/
def Run.lines (trace : Bool) (r : Run) : Except Outcome (List String) :=
  match r.outcome with
  | .halted value s =>
    .ok (traceLines trace r.events
      ++ ["", s!"Result: {value}", s!"Steps: {s.steps} (max stack depth {s.maxDepth})"])
  | outcome => .error outcome

end StackMachine
