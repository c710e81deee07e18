import StackMachine.Machine
import StackMachine.Validation

/-!
# Well-formed instructions

An instruction is well-formed if its operand is the one that its operation carries. The checker rejects every other
item (`wellFormed_or_rejected`), and the machine fails at it, with the same complaint, should a run come to it
(`Rejected.step`).
-/

namespace StackMachine

open Validation

/-! ### Integers in programs -/

theorem Opcode.fits_number (op : Opcode) : Word.fits op.number = true := by
  cases op <;> rfl

/-- An integer in a program is a plain integer, or an operation that stands for its number. -/
theorem Literal.integer?_eq_some_iff {literal : Literal} {n : Int} :
    literal.integer? = some n ↔
      literal = .int n ∨ ∃ op : Opcode, literal = .object (.ofOpcode op) ∧ n = op.number := by
  rcases literal with _ | _ | _ | ⟨⟨_ | _ | _⟩⟩ | _ <;>
    simp [integer?, Object.integer?, Object.ofOpcode, eq_comm]

theorem Literal.integer?_eq_none_iff {literal : Literal} :
    literal.integer? = none ↔ (∀ n, literal ≠ .int n) ∧ ∀ op, literal ≠ .object (.ofOpcode op) := by
  simp only [Option.eq_none_iff_forall_ne_some, ne_eq, integer?_eq_some_iff, not_or, not_exists, not_and]
  exact ⟨fun h => ⟨fun n => (h n).1, fun op heq => (h op.number).2 op heq rfl⟩,
    fun h n => ⟨h.1 n, fun op heq => absurd heq (h.2 op)⟩⟩

/-- Only a plain integer can be out of range. -/
theorem Literal.eq_int_of_not_fits {literal : Literal} {n : Int} (h : literal.integer? = some n)
    (hn : Word.fits n = false) : literal = .int n := by
  rcases integer?_eq_some_iff.mp h with he | ⟨op, -, rfl⟩
  · exact he
  · rw [op.fits_number] at hn
    cases hn

/-- An integer that is a word can be written out, whatever it looks like. -/
theorem Literal.isWritable_of_fits {literal : Literal} {n : Int} (h : literal.integer? = some n)
    (hn : Word.fits n = true) : literal.isWritable = true := by
  rcases integer?_eq_some_iff.mp h with rfl | ⟨op, rfl, -⟩
  · exact Word.isWritable_of_fits hn
  · rfl

/-- An integer goes on the stack if it is a word, a number and an operation alike. -/
theorem Instruction.exec_pushInt_of_integer? {operand : Literal} {n : Int} (h : operand.integer? = some n)
    (stack : List Value) : exec ⟨.pushInt, operand⟩ stack = Effect.pushWord .pushInt n stack := by
  simp only [exec, h]

theorem Instruction.exec_pushInt_of_none {operand : Literal} (h : operand.integer? = none) (stack : List Value) :
    exec ⟨.pushInt, operand⟩ stack = .error ⟨.wrongOperand .pushInt operand, stack⟩ := by
  simp only [exec, h]

/-- Pushing an integer that is a word succeeds. -/
theorem Instruction.exec_pushInt_of_fits {operand : Literal} {n : Int} (h : operand.integer? = some n)
    (hn : Word.fits n = true) (stack : List Value) : exec ⟨.pushInt, operand⟩ stack = .ok (.int n :: stack) := by
  rw [exec_pushInt_of_integer? h, Effect.pushWord, if_pos hn]

/-! ### Well-formed instructions -/

/-- The instruction has the operand that its operation carries, and an integer operand is a word. -/
def Instruction.WellFormed (i : Instruction) : Prop :=
  match i.opcode.operandKind, i.operand with
  | .none, .null => True
  | .integer, operand => operand.integer?.any Word.fits = true
  | .text, .text _ => True
  | _, _ => False

/-- The item is a well-formed instruction. -/
def Item.WellFormed : Item → Prop
  | .instruction i => i.WellFormed
  | _ => False

theorem Instruction.WellFormed.cases {i : Instruction} (h : i.WellFormed) :
    (∃ operand n, operand.integer? = some n ∧ Word.fits n = true ∧ i = ⟨.pushInt, operand⟩) ∨
      (∃ s, i = ⟨.pushStr, .text s⟩) ∨ (i.opcode.operandKind = .none ∧ i.operand = .null) := by
  obtain ⟨op, operand⟩ := i
  cases op with
  | pushInt =>
    cases hn : operand.integer? with
    | none => simp [Instruction.WellFormed, Opcode.operandKind, hn] at h
    | some n =>
      have fits : Word.fits n = true := by simpa [Instruction.WellFormed, Opcode.operandKind, hn] using h
      exact .inl ⟨operand, n, hn, fits, rfl⟩
  | _ => cases operand <;> simp_all [Instruction.WellFormed, Opcode.operandKind]

theorem Instruction.WellFormed.eq_halt {i : Instruction} (h : i.WellFormed) (hop : i.opcode = .halt) : i = .halt := by
  obtain ⟨op, operand⟩ := i
  obtain rfl : op = .halt := hop
  cases operand <;> first | rfl | exact h.elim

/-- A well-formed instruction can be written out. -/
theorem Item.WellFormed.isWritable {item : Item} (h : item.WellFormed) : item.isWritable = true := by
  cases item with
  | unknown | stray => exact h.elim
  | instruction i =>
    simp only [Item.isWritable, Instruction.isWritable]
    rcases Instruction.WellFormed.cases h with ⟨operand, n, hn, fits, rfl⟩ | ⟨s, rfl⟩ | ⟨-, he⟩
    · exact Literal.isWritable_of_fits hn fits
    · rfl
    · rw [he]
      rfl

theorem wellFormed_map {instructions : List Instruction} :
    (∀ item ∈ instructions.map Item.instruction, item.WellFormed) ↔ ∀ i ∈ instructions, i.WellFormed := by
  simp [Item.WellFormed]

/-- Whether the item is an instruction of the machine. -/
def Item.isInstruction : Item → Bool
  | instruction _ => true
  | _ => false

theorem Item.WellFormed.isInstruction {item : Item} (h : item.WellFormed) : item.isInstruction = true := by
  cases item with
  | instruction i => rfl
  | unknown | stray => exact h.elim

theorem exists_map_of_isInstruction {items : List Item} (h : ∀ item ∈ items, item.isInstruction = true) :
    ∃ instructions : List Instruction, items = instructions.map .instruction := by
  induction items with
  | nil => exact ⟨[], rfl⟩
  | cons item rest ih =>
    obtain ⟨hitem, hrest⟩ := List.forall_mem_cons.mp h
    obtain ⟨instructions, rfl⟩ := ih hrest
    cases item with
    | instruction i => exact ⟨i :: instructions, rfl⟩
    | unknown | stray => cases hitem

/-- A list of well-formed items is a list of instructions. -/
theorem exists_map_instruction {items : List Item} (h : ∀ item ∈ items, item.WellFormed) :
    ∃ instructions : List Instruction, items = instructions.map .instruction :=
  exists_map_of_isInstruction fun item hitem => (h item hitem).isInstruction

/-! ### Rejected items -/

/-- The item is not a well-formed instruction; `violation` says why, and `op` is its operation if it has one. -/
inductive Rejected : Item → Violation → Option Opcode → Prop
  | item {item : Item} (h : ∀ i, item ≠ .instruction i) : Rejected item (.unknownItem item) none
  | operand {i : Instruction} {violation : Violation} (h : operandViolation? i = some violation) :
    Rejected (.instruction i) violation (some i.opcode)

theorem operandViolation?_eq_none_iff {i : Instruction} : operandViolation? i = none ↔ i.WellFormed := by
  obtain ⟨op, operand⟩ := i
  cases op with
  | pushInt => cases h : operand.integer? <;> simp [operandViolation?, Instruction.WellFormed, Opcode.operandKind, h]
  | _ => cases operand <;> simp [operandViolation?, Instruction.WellFormed, Opcode.operandKind]

instance (i : Instruction) : Decidable i.WellFormed :=
  decidable_of_iff (operandViolation? i = none) operandViolation?_eq_none_iff

instance : DecidablePred Item.WellFormed
  | .instruction i => inferInstanceAs (Decidable i.WellFormed)
  | .unknown .. | .stray _ => inferInstanceAs (Decidable False)

theorem wellFormed_or_rejected (item : Item) : item.WellFormed ∨ ∃ violation op, Rejected item violation op := by
  cases item with
  | unknown | stray => exact .inr ⟨_, _, .item (by simp)⟩
  | instruction i =>
    cases h : operandViolation? i with
    | none => exact .inl (operandViolation?_eq_none_iff.mp h)
    | some violation => exact .inr ⟨violation, _, .operand h⟩

theorem Rejected.not_wellFormed {item : Item} {violation : Violation} {op : Option Opcode}
    (h : Rejected item violation op) : ¬item.WellFormed := by
  cases h with
  | item h =>
    cases item with
    | instruction i => exact absurd rfl (h i)
    | unknown | stray => exact id
  | operand h =>
    intro hwf
    rw [operandViolation?_eq_none_iff.mpr hwf] at h
    cases h

/-- What is said about a rejected item can be written out if the item can. -/
theorem Rejected.isWritable_eq {item : Item} {violation : Violation} {op : Option Opcode}
    (h : Rejected item violation op) : violation.isWritable = item.isWritable := by
  cases h with
  | item => rfl
  | @operand i violation h =>
    simp only [Item.isWritable, Instruction.isWritable]
    unfold operandViolation? at h
    split at h
    case h_3 =>
      cases hn : i.operand.integer? with
      | none =>
        rw [hn] at h
        rw [← Option.some.inj h, Violation.isWritable]
      | some n =>
        simp only [hn, Option.ite_none_left_eq_some] at h
        rw [← Option.some.inj h.2, Literal.eq_int_of_not_fits hn (Bool.eq_false_iff.mpr h.1)]
        rfl
    case h_1 | h_4 => cases h
    all_goals rw [← Option.some.inj h, Violation.isWritable]

/-- The kinds of violation that a single item can have, and the kinds of fault that it then gives rise to. -/
def SameComplaint (violation : Violation) (cause : Cause) : Prop :=
  cause.isWritable = violation.isWritable ∧
    (((violation.kind = .invalidOpcode ∨ violation.kind = .invalidOperand) ∧ cause.kind = .invalidInstruction) ∨
      (violation.kind = .operandOutOfRange ∧ cause.kind = .arithmeticOverflow))

/-- The machine has the same complaint about a rejected item as the checker, and leaves the stack alone. -/
theorem Rejected.step {item : Item} {violation : Violation} {op : Option Opcode} (h : Rejected item violation op)
    (s : State) :
    ∃ cause t, s.step item = .faulted ⟨cause, s.pc, op⟩ t ∧ SameComplaint violation cause ∧
      t.stack = s.stack ∧ t.maxDepth = s.maxDepth := by
  cases h with
  | item h =>
    cases item with
    | instruction i => exact absurd rfl (h i)
    | unknown | stray => exact ⟨_, _, rfl, ⟨rfl, .inl ⟨.inl rfl, rfl⟩⟩, rfl, rfl⟩
  | @operand i violation h =>
    obtain ⟨opcode, operand⟩ := i
    cases opcode with
    | pushInt =>
      cases hi : operand.integer? with
      | some n =>
        -- a literal that is no word: the machine finds out when it pushes it
        cases hn : Word.fits n with
        | true => simp [operandViolation?, Opcode.operandKind, hi, hn] at h
        | false =>
          obtain rfl : .outOfRange n = violation := by
            simpa [operandViolation?, Opcode.operandKind, hi, hn] using h
          refine ⟨.overflow .pushInt n, { s.advance with stack := s.stack }, ?_, ⟨rfl, .inr ⟨rfl, rfl⟩⟩, rfl, rfl⟩
          simp [State.step, Opcode.operandKind, Instruction.exec, Effect.pushWord, hi, hn]
      | none =>
        obtain rfl : .wrongOperand .pushInt operand = violation := by
          simpa [operandViolation?, Opcode.operandKind, hi] using h
        refine ⟨.wrongOperand .pushInt operand, { s.advance with stack := s.stack }, ?_,
          ⟨rfl, .inl ⟨.inr rfl, rfl⟩⟩, rfl, rfl⟩
        simp [State.step, Opcode.operandKind, Instruction.exec, hi]
    | pushStr =>
      cases operand with
      | text t => cases h
      | null | bool | object | int =>
        obtain rfl := Option.some.inj h
        exact ⟨_, _, rfl, ⟨rfl, .inl ⟨.inr rfl, rfl⟩⟩, rfl, rfl⟩
    | _ =>
      -- an operand where none belongs: the machine does not even take the instruction up
      cases operand with
      | null => cases h
      | _ =>
        obtain rfl := Option.some.inj h
        exact ⟨_, _, rfl, ⟨rfl, .inl ⟨.inr rfl, rfl⟩⟩, rfl, rfl⟩

end StackMachine
