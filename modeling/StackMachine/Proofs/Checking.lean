import Mathlib.Data.List.Basic
import StackMachine.Proofs.WellFormed

/-!
# The passes of the checker

The first two passes together look for an item that is not a well-formed instruction (`firstMalformed?`): if there is
one, they reject the program at that item, and if there is none, the third pass decides (`check_cases`). The third pass
never looks back: the depth that it reports is at least the depth that it starts from, and so are the positions that it
rejects.
-/

namespace StackMachine

open Validation

/-! ### The first two passes -/

/-- The item that the first two passes stop at: the first one that is no instruction, or else the first one that is not
well-formed. -/
def Validation.firstMalformed? (items : List Item) : Option Item :=
  (items.find? fun item => !item.isInstruction).or (items.find? fun item => !decide item.WellFormed)

theorem wellFormed_of_firstMalformed {items : List Item} (h : firstMalformed? items = none) :
    ∀ item ∈ items, item.WellFormed := by
  intro item hitem
  have hnone := (Option.or_eq_none_iff.mp h).2
  simpa using List.find?_eq_none.mp hnone item hitem

private theorem instructionsFrom_map (index : Nat) (instructions : List Instruction) :
    instructionsFrom index (instructions.map .instruction) = .ok instructions := by
  induction instructions generalizing index with
  | nil => rfl
  | cons i rest ih => simp [instructionsFrom, ih, Except.map]

private theorem instructionsFrom_append (index : Nat) (before : List Instruction) {item : Item}
    (hitem : item.isInstruction = false) (rest : List Item) :
    instructionsFrom index (before.map .instruction ++ item :: rest) =
      .error ⟨.unknownItem item, some (index + before.length), none⟩ := by
  induction before generalizing index with
  | nil =>
    cases item with
    | instruction i => cases hitem
    | unknown | stray => rfl
  | cons i before ih => simp [instructionsFrom, ih, Except.map, Nat.add_comm, Nat.add_left_comm]

private theorem operandRejection?_eq_none (index : Nat) {instructions : List Instruction}
    (hwf : ∀ i ∈ instructions, i.WellFormed) : operandRejection? index instructions = none := by
  induction instructions generalizing index with
  | nil => rfl
  | cons i rest ih =>
    obtain ⟨hi, hrest⟩ := List.forall_mem_cons.mp hwf
    simp [operandRejection?, operandViolation?_eq_none_iff.mpr hi, ih (index + 1) hrest]

private theorem eq_map_of_instructionsFrom {index : Nat} {items : List Item} {instructions : List Instruction}
    (h : instructionsFrom index items = .ok instructions) : items = instructions.map .instruction := by
  induction items generalizing index instructions with
  | nil =>
    injection h with h
    rw [← h, List.map_nil]
  | cons item rest ih =>
    cases item with
    | unknown | stray => cases h
    | instruction i =>
      rw [instructionsFrom] at h
      cases hrest : instructionsFrom (index + 1) rest with
      | error rejection => rw [hrest] at h; cases h
      | ok others =>
        rw [hrest] at h
        injection h with h
        rw [← h, List.map_cons, ih hrest]

private theorem wellFormed_of_operandRejection? {index : Nat} {instructions : List Instruction}
    (h : operandRejection? index instructions = none) : ∀ i ∈ instructions, i.WellFormed := by
  induction instructions generalizing index with
  | nil => simp
  | cons i rest ih =>
    unfold operandRejection? at h
    split at h
    · cases h
    · next hi => exact List.forall_mem_cons.mpr ⟨operandViolation?_eq_none_iff.mp hi, ih h⟩

/-- The first two passes find nothing wrong with the items. -/
def Validation.Passes (items : List Item) : Prop :=
  ∃ instructions, instructionsFrom 0 items = .ok instructions ∧ operandRejection? 0 instructions = none

/-- The first two passes are content with well-formed items, and with no others. -/
theorem passes_iff {items : List Item} : Passes items ↔ ∀ item ∈ items, item.WellFormed := by
  constructor
  · rintro ⟨instructions, hfirst, hsecond⟩
    rw [eq_map_of_instructionsFrom hfirst, wellFormed_map]
    exact wellFormed_of_operandRejection? hsecond
  · intro hwf
    obtain ⟨instructions, rfl⟩ := exists_map_instruction hwf
    exact ⟨instructions, instructionsFrom_map 0 instructions, operandRejection?_eq_none 0 (wellFormed_map.mp hwf)⟩

private theorem operandRejection?_append (index : Nat) {before : List Instruction}
    (hbefore : ∀ i ∈ before, i.WellFormed) {i : Instruction} {violation : Violation}
    (hi : operandViolation? i = some violation) (rest : List Instruction) :
    operandRejection? index (before ++ i :: rest) = some ⟨violation, some (index + before.length), some i.opcode⟩ := by
  induction before generalizing index with
  | nil => simp [operandRejection?, hi]
  | cons j before ih =>
    obtain ⟨hj, hrest⟩ := List.forall_mem_cons.mp hbefore
    simp [operandRejection?, operandViolation?_eq_none_iff.mpr hj, ih (index + 1) hrest, Nat.add_comm,
      Nat.add_left_comm]

/-- The first pass stops at an item behind instructions that is none itself. -/
theorem check_of_item {p : Program} {before : List Instruction} {item : Item} (hitem : item.isInstruction = false)
    {rest : List Item} (hp : p.items = before.map .instruction ++ item :: rest) :
    p.check = .error ⟨.unknownItem item, some before.length, none⟩ := by
  simp [Program.check, hp, instructionsFrom_append 0 before hitem]

/-- The second pass stops at an instruction behind well-formed ones that has a wrong operand. -/
theorem check_of_violation {p : Program} {before : List Instruction} (hbefore : ∀ i ∈ before, i.WellFormed)
    {i : Instruction} {violation : Violation} (hi : operandViolation? i = some violation) {rest : List Instruction}
    (hp : p.items = (before ++ i :: rest).map .instruction) :
    p.check = .error ⟨violation, some before.length, some i.opcode⟩ := by
  have hpass : instructionsFrom 0 p.items = .ok (before ++ i :: rest) := by rw [hp, instructionsFrom_map]
  have hne : p.items.isEmpty = false := by simp [hp]
  simp [Program.check, hne, hpass, operandRejection?_append 0 hbefore hi rest]

private theorem check_of_stray {p : Program} {item : Item}
    (h : p.items.find? (fun item => !item.isInstruction) = some item) :
    ∃ before rest, p.items = before ++ item :: rest ∧ Rejected item (.unknownItem item) none ∧
      p.check = .error ⟨.unknownItem item, some before.length, none⟩ := by
  obtain ⟨hitem, before, rest, hp, hbefore⟩ := List.find?_eq_some_iff_append.mp h
  have hstray : item.isInstruction = false := by simpa using hitem
  obtain ⟨instructions, rfl⟩ := exists_map_of_isInstruction fun b hb => by simpa using hbefore b hb
  refine ⟨_, rest, hp, .item ?_, ?_⟩
  · rintro i rfl
    cases hstray
  · rw [List.length_map]
    exact check_of_item hstray hp

private theorem check_of_operand {p : Program} {item : Item}
    (hall : p.items.find? (fun item => !item.isInstruction) = none)
    (h : p.items.find? (fun item => !decide item.WellFormed) = some item) :
    ∃ before rest violation op, p.items = before ++ item :: rest ∧ Rejected item violation op ∧
      p.check = .error ⟨violation, some before.length, op⟩ := by
  obtain ⟨instructions, hp⟩ := exists_map_of_isInstruction fun b hb => by
    simpa using List.find?_eq_none.mp hall b hb
  rw [hp, List.find?_map] at h
  obtain ⟨i, hi, rfl⟩ := Option.map_eq_some_iff.mp h
  obtain ⟨hmalformed, before, rest, rfl, hbefore⟩ := List.find?_eq_some_iff_append.mp hi
  have hwf : ∀ j ∈ before, j.WellFormed := fun j hj =>
    show (Item.instruction j).WellFormed from by simpa using hbefore j hj
  obtain ⟨violation, hviolation⟩ : ∃ violation, operandViolation? i = some violation := by
    refine Option.ne_none_iff_exists'.mp fun hnone => ?_
    simp [Item.WellFormed, operandViolation?_eq_none_iff.mp hnone] at hmalformed
  refine ⟨before.map .instruction, rest.map .instruction, violation, _, by rw [hp, List.map_append]; rfl,
    .operand hviolation, ?_⟩
  rw [List.length_map]
  exact check_of_violation hwf hviolation hp

/-- The checker rejects a program with a malformed item, and it is the first one that it complains about. -/
theorem check_of_firstMalformed {p : Program} {item : Item} (h : firstMalformed? p.items = some item) :
    ∃ before rest violation op, p.items = before ++ item :: rest ∧ Rejected item violation op ∧
      p.check = .error ⟨violation, some before.length, op⟩ := by
  rcases Option.or_eq_some_iff.mp h with hstray | ⟨hall, hoperand⟩
  · obtain ⟨before, rest, hcheck⟩ := check_of_stray hstray
    exact ⟨before, rest, _, _, hcheck⟩
  · exact check_of_operand hall hoperand

/-- Of a program of well-formed instructions, the third pass decides. -/
theorem check_of_wellFormed {p : Program} {instructions : List Instruction}
    (hp : p.items = instructions.map .instruction) (hne : instructions ≠ [])
    (hwf : ∀ i ∈ instructions, i.WellFormed) : p.check = followDepth 0 0 0 instructions := by
  simp [Program.check, hp, hne, instructionsFrom_map, operandRejection?_eq_none 0 hwf]

/-- All that the checker can say of a program. -/
theorem check_cases (p : Program) :
    (p.items = [] ∧ p.check = .error ⟨.emptyProgram p.name, none, none⟩) ∨
    (∃ before item rest violation op, p.items = before ++ item :: rest ∧ Rejected item violation op ∧
      p.check = .error ⟨violation, some before.length, op⟩) ∨
    ∃ instructions, instructions ≠ [] ∧ p.items = instructions.map .instruction ∧
      (∀ i ∈ instructions, i.WellFormed) ∧ p.check = followDepth 0 0 0 instructions := by
  cases hfirst : firstMalformed? p.items with
  | some item =>
    obtain ⟨before, rest, violation, op, hcheck⟩ := check_of_firstMalformed hfirst
    exact .inr (.inl ⟨before, item, rest, violation, op, hcheck⟩)
  | none =>
    have hwf := wellFormed_of_firstMalformed hfirst
    obtain ⟨instructions, hp⟩ := exists_map_instruction hwf
    rw [hp, wellFormed_map] at hwf
    by_cases hne : instructions = []
    · have hnil : p.items = [] := by rw [hp, hne, List.map_nil]
      exact .inl ⟨hnil, by simp [Program.check, hnil]⟩
    · exact .inr (.inr ⟨instructions, hne, hp, hwf, check_of_wellFormed hp hne hwf⟩)

/-! ### The third pass -/

section

variable {index depth maxDepth : Nat} {i : Instruction}

theorem followDepth_cons_underflow (hop : i.opcode ≠ .halt) (h : depth < i.opcode.pops) (rest : List Instruction) :
    followDepth index depth maxDepth (i :: rest) =
      .error ⟨.underflow depth i.opcode.pops, some index, some i.opcode⟩ := by
  simp only [followDepth, hop, h, ↓reduceIte]

theorem followDepth_cons (hop : i.opcode ≠ .halt) (h : i.opcode.pops ≤ depth) (rest : List Instruction) :
    followDepth index depth maxDepth (i :: rest) =
      followDepth (index + 1) (depth - i.opcode.pops + i.opcode.pushes)
        (max maxDepth (depth - i.opcode.pops + i.opcode.pushes)) rest := by
  simp only [followDepth, hop, Nat.not_lt.mpr h, ↓reduceIte]

end

theorem le_maxDepth_of_followDepth {index depth maxDepth : Nat} {instructions : List Instruction} {r : Summary}
    (h : followDepth index depth maxDepth instructions = .ok r) : maxDepth ≤ r.maxDepth := by
  induction instructions generalizing index depth maxDepth with
  | nil =>
    unfold followDepth at h
    split at h
    · injection h with h; subst h; exact Nat.le_refl _
    · cases h
  | cons i rest ih =>
    unfold followDepth at h
    split at h
    · split at h
      · split at h
        · injection h with h; subst h; exact Nat.le_refl _
        · cases h
      · cases h
    · split at h
      · cases h
      · exact Nat.le_trans (Nat.le_max_left ..) (ih h)

/-- All that the third pass can reject, with its place. Behind a `HALT` it rejects what it accepts up to there. -/
theorem followDepth_error {index depth maxDepth : Nat} {instructions : List Instruction} {r : Rejection}
    (h : followDepth index depth maxDepth instructions = .error r) :
    (∃ before i rest found, instructions = before ++ i :: rest ∧
      r = ⟨.underflow found i.opcode.pops, some (index + before.length), some i.opcode⟩) ∨
    (∃ before i rest found, instructions = before ++ i :: rest ∧ i.opcode = .halt ∧
      r = ⟨.depthAtHalt found, some (index + before.length), some .halt⟩) ∨
    (∃ found, r = ⟨.depthAtEnd found, some (index + instructions.length), none⟩) ∨
    ∃ before i next rest summary, instructions = before ++ i :: next :: rest ∧ i.opcode = .halt ∧
      followDepth index depth maxDepth (before ++ [i]) = .ok summary ∧
      r = ⟨.unreachable (next :: rest).length, some (index + before.length + 1), some next.opcode⟩ := by
  induction instructions generalizing index depth maxDepth with
  | nil =>
    unfold followDepth at h
    split at h
    · cases h
    · injection h with h
      exact .inr (.inr (.inl ⟨depth, h.symm⟩))
  | cons i rest ih =>
    by_cases hop : i.opcode = .halt
    · unfold followDepth at h
      rw [if_pos hop] at h
      by_cases h1 : depth = 1
      · rw [if_pos h1] at h
        cases rest with
        | nil => cases h
        | cons next rest =>
          injection h with h
          refine .inr (.inr (.inr ⟨[], i, next, rest, ⟨some index, maxDepth⟩, rfl, hop, ?_, h.symm⟩))
          simp [followDepth, hop, h1]
      · rw [if_neg h1] at h
        injection h with h
        exact .inr (.inl ⟨[], i, rest, depth, rfl, hop, h.symm⟩)
    · -- not a `HALT`, so the pass may go on, and positions in the rest shift by one
      by_cases hlt : depth < i.opcode.pops
      · rw [followDepth_cons_underflow hop hlt] at h
        injection h with h
        exact .inl ⟨[], i, rest, depth, rfl, h.symm⟩
      · have hle : i.opcode.pops ≤ depth := Nat.le_of_not_lt hlt
        rw [followDepth_cons hop hle] at h
        have hplus : ∀ n, index + 1 + n = index + (n + 1) := fun n => by omega
        rcases ih h with ⟨before, j, left, found, rfl, hr⟩ | ⟨before, j, left, found, rfl, hj, hr⟩ |
          ⟨found, hr⟩ | ⟨before, j, next, left, summary, rfl, hj, hok, hr⟩
        · exact .inl ⟨i :: before, j, left, found, rfl, by rw [hr, hplus]; rfl⟩
        · exact .inr (.inl ⟨i :: before, j, left, found, rfl, hj, by rw [hr, hplus]; rfl⟩)
        · exact .inr (.inr (.inl ⟨found, by rw [hr, hplus]; rfl⟩))
        · refine .inr (.inr (.inr ⟨i :: before, j, next, left, summary, rfl, hj, ?_, by rw [hr, hplus]; rfl⟩))
          rw [List.cons_append, followDepth_cons hop hle]
          exact hok

theorem le_index_of_followDepth {index depth maxDepth : Nat} {instructions : List Instruction} {r : Rejection}
    (h : followDepth index depth maxDepth instructions = .error r) : ∃ i, r.index = some i ∧ index ≤ i := by
  rcases followDepth_error h with ⟨before, _, _, _, -, rfl⟩ | ⟨before, _, _, _, -, -, rfl⟩ | ⟨_, rfl⟩ |
    ⟨before, _, _, _, _, -, -, -, rfl⟩
  · exact ⟨_, rfl, Nat.le_add_right ..⟩
  · exact ⟨_, rfl, Nat.le_add_right ..⟩
  · exact ⟨_, rfl, Nat.le_add_right ..⟩
  · exact ⟨_, rfl, by omega⟩

/-! ### Verdicts -/

theorem validate_eq_accepted_iff {p : Program} {r : Summary} : p.validate = .accepted r ↔ p.check = .ok r := by
  unfold Program.validate
  cases p.check with
  | ok summary => simp
  | error rejection => by_cases h : rejection.violation.isWritable = true <;> simp [h]

theorem validate_eq_rejected_iff {p : Program} {r : Rejection} :
    p.validate = .rejected r ↔ p.check = .error r ∧ r.violation.isWritable = true := by
  unfold Program.validate
  cases p.check with
  | ok summary => simp
  | error rejection =>
    by_cases h : rejection.violation.isWritable = true
    · simp only [h, ↓reduceIte, Verdict.rejected.injEq, Except.error.injEq]
      exact ⟨fun he => ⟨he, he ▸ h⟩, fun he => he.1⟩
    · simp only [h, ↓reduceIte, Except.error.injEq, reduceCtorEq, false_iff, not_and]
      intro he
      exact he ▸ h

end StackMachine
