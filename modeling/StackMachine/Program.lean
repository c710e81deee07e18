import StackMachine.Instruction

/-!
# Programs

A program is a named sequence of items. It is a list for all purposes, and it can be shown in two ways: as one line per
item, and as a paragraph under its name.
-/

namespace StackMachine

/-- A named sequence of items. -/
structure Program where
  name : String
  items : List Item
deriving DecidableEq

namespace Program

/-- The number of items. -/
def size (p : Program) : Nat := p.items.length

/-- The item at a position; negative positions count from the end. -/
def at? (p : Program) (i : Int) : Option Item :=
  let position := if i < 0 then i + p.size else i
  if position < 0 then none else p.items[position.toNat]?

/-- Whether all items can be written out. -/
def isWritable (p : Program) : Bool :=
  p.items.all Item.isWritable

/-- Lines for items whose positions start at `index`. -/
def disassembleFrom (index : Nat) : List Item → List String
  | [] => []
  | item :: rest => s!"{index}: {item.plain}" :: disassembleFrom (index + 1) rest

/-- One line per item, with its position. -/
def disassemble (p : Program) : List String :=
  disassembleFrom 0 p.items

/-- A number in a column of at least three characters, set to the right. -/
def column (n : Nat) : String :=
  String.ofList ((toString n).toList.leftpad 3 ' ')

/-- Indented lines for items whose positions start at `index`. -/
def indentedFrom (index : Nat) : List Item → List String
  | [] => []
  | item :: rest => s!"    {column index}: {item.plain}" :: indentedFrom (index + 1) rest

/-- The program as a paragraph: its name, its size, and its items with aligned positions. -/
def describe (p : Program) : String :=
  "\n".intercalate (s!"Program: {p.name}" :: s!"  Instructions: {p.size}" :: indentedFrom 0 p.items)

/-- The paragraph and the lines of the program, if all items can be written out. -/
def views? (p : Program) : Option (String × List String) :=
  if p.isWritable then some (p.describe, p.disassemble) else none

/-- Equality of programs: the same name, and the same items one by one. -/
def same (p q : Program) : Bool :=
  p.name == q.name && Item.sameAll p.items q.items

theorem getElem?_disassembleFrom (index : Nat) (items : List Item) (k : Nat) :
    (disassembleFrom index items)[k]? = items[k]?.map fun item => s!"{index + k}: {item.plain}" := by
  induction items generalizing index k with
  | nil => rfl
  | cons item rest ih =>
    cases k with
    | zero => rfl
    | succ k => simp [disassembleFrom, ih, Nat.add_comm, Nat.add_left_comm]

/-- Line `k` of a program shows item `k` behind its position. -/
theorem getElem?_disassemble (p : Program) (k : Nat) :
    p.disassemble[k]? = p.items[k]?.map fun item => s!"{k}: {item.plain}" := by
  rw [disassemble, getElem?_disassembleFrom, Nat.zero_add]

end Program

end StackMachine
