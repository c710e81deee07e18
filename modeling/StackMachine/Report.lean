import StackMachine.Text.Decimal

/-!
# Reports

A report tells a user what went wrong: a message, the place in the program, and up to four further details. Its text
has one line for the message, one for the place, and one for each detail that is there.
-/

namespace StackMachine

/-- The kinds of report. Compilation and execution are groups of kinds that can also be reported as such. -/
inductive Report.Kind where
  | general
  | compilation
  | unknownProgram
  | badTemplate
  | execution
  | stackUnderflow
  | typeMismatch
  | parse
  | incompleteProgram
  | arithmeticOverflow
  | divisionByZero
  | invalidInstruction
deriving DecidableEq

/-- A kind together with the groups that it belongs to, the narrowest first. -/
def Report.Kind.lineage : Report.Kind → List Report.Kind
  | general => [general]
  | compilation => [compilation, general]
  | unknownProgram => [unknownProgram, compilation, general]
  | badTemplate => [badTemplate, compilation, general]
  | execution => [execution, general]
  | kind => [kind, execution, general]

/-- What went wrong, where, and what may help. -/
structure Report where
  kind : Report.Kind
  message : String
  /-- The position of the offending item. -/
  index : Option Int := none
  /-- The name of the offending operation. -/
  opcode : Option String := none
  /-- What was found. -/
  received : Option String := none
  /-- What would have been right. -/
  expected : Option String := none
  /-- More about the circumstances. -/
  context : Option String := none
  /-- What to do about it. -/
  suggestion : Option String := none
deriving DecidableEq

namespace Report

/-- The line that tells the place, if there is one. An operation alone is no place. -/
def placeLine (r : Report) : List String :=
  match r.index, r.opcode with
  | none, _ => []
  | some i, none => [s!"Instruction: {i}"]
  | some i, some op => [s!"Instruction: {i} ({op})"]

/-- The line of a detail; a missing or empty detail has none. -/
def detailLine (label : String) : Option String → List String
  | none => []
  | some detail => if detail.isEmpty then [] else [s!"{label}: {detail}"]

/-- The lines of the report in their order. -/
def lines (r : Report) : List String :=
  s!"Error: {r.message}" :: (r.placeLine ++ detailLine "Received" r.received ++ detailLine "Expected" r.expected
    ++ detailLine "Context" r.context ++ detailLine "Suggestion" r.suggestion)

/-- The report as text. -/
def text (r : Report) : String :=
  "\n".intercalate r.lines

/-- Whether the position can be written out. -/
def isWritable (r : Report) : Bool :=
  match r.index with
  | none => true
  | some i => Decimal.isWritable i

/-- The report as text, if its position can be written out. -/
def text? (r : Report) : Option String :=
  if r.isWritable then some r.text else none

end Report

end StackMachine
