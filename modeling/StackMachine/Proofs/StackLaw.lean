import StackMachine.Proofs.FaultSite

/-!
# The stack law

Whatever a run has put on the stack, the next instruction obeys the table of operations: it underflows exactly if there
are fewer values than it takes, and then takes none; it replaces the values that it takes by as many as it gives; or it
fails with the values taken and nothing given. One law holds for every way in which an instruction can end
(`exec_law`), with a literal of the wrong kind or size among them, and it is what the run shows (`stack_law`). A `HALT`
takes and gives nothing and cannot fail.
-/

namespace StackMachine

/-! ### One instruction -/

theorem Report.Kind.ne_underflow_of_mem {kind : Report.Kind} (h : kind ∈ valueFaults) : kind ≠ .stackUnderflow := by
  rintro rfl
  simp [valueFaults] at h

/-- A push with a literal that it cannot push fails, and no other instruction can be malformed unless it has an operand
that does not belong to it. -/
private theorem exec_of_not_wellFormed {i : Instruction} (hi : i.opcode.operandKind = .none → i.operand = .null)
    (hwf : ¬ i.WellFormed) (stack : List Value) :
    i.opcode.pops = 0 ∧ ∃ cause : Cause, cause.kind ≠ .stackUnderflow ∧ i.exec stack = .error ⟨cause, stack⟩ := by
  obtain ⟨op, operand⟩ := i
  cases op with
  | pushInt =>
    refine ⟨rfl, ?_⟩
    cases hn : operand.integer? with
    | some n =>
      have fits : Word.fits n = false := by simpa [Instruction.WellFormed, Opcode.operandKind, hn] using hwf
      refine ⟨.overflow .pushInt n, by simp [Cause.kind], ?_⟩
      rw [Instruction.exec_pushInt_of_integer? hn, Effect.pushWord, if_neg (Bool.eq_false_iff.mp fits)]
    | none => exact ⟨.wrongOperand .pushInt operand, by simp [Cause.kind], Instruction.exec_pushInt_of_none hn stack⟩
  | pushStr =>
    refine ⟨rfl, ?_⟩
    cases operand with
    | text s => exact absurd trivial hwf
    | null | bool | int | object => exact ⟨.wrongOperand .pushStr _, by simp [Cause.kind], rfl⟩
  | _ =>
    obtain rfl : operand = .null := hi rfl
    exact absurd trivial hwf

/-- All that an instruction can do to a stack, unless it has an operand where none belongs. -/
theorem exec_law {i : Instruction} (hi : i.opcode.operandKind = .none → i.operand = .null) (stack : List Value) :
    (stack.length < i.opcode.pops ∧ i.exec stack = Effect.underflow i.opcode i.opcode.pops stack) ∨
    (i.opcode.pops ≤ stack.length ∧
      ∃ given, given.length = i.opcode.pushes ∧ i.exec stack = .ok (given ++ stack.drop i.opcode.pops)) ∨
    (i.opcode.pops ≤ stack.length ∧
      ∃ cause : Cause, cause.kind ≠ .stackUnderflow ∧ i.exec stack = .error ⟨cause, stack.drop i.opcode.pops⟩) := by
  by_cases hwf : i.WellFormed
  · rcases exec_cases hwf stack with h | h | ⟨hle, cause, hkind, he⟩
    · exact .inl h
    · exact .inr (.inl h)
    · exact .inr (.inr ⟨hle, cause, Report.Kind.ne_underflow_of_mem hkind, he⟩)
  · obtain ⟨hpops, cause, hkind, he⟩ := exec_of_not_wellFormed hi hwf stack
    rw [hpops]
    exact .inr (.inr ⟨Nat.zero_le _, cause, hkind, he⟩)

namespace State

/-- An instruction without a stray operand is taken up, and what it makes of the stack decides the step. -/
theorem step_of_takenUp {i : Instruction} (hi : i.opcode.operandKind = .none → i.operand = .null) (s : State) :
    s.step (.instruction i) =
      match i.exec s.stack with
      | .ok stack => .moved (s.complete i.opcode stack)
      | .error failure =>
        .faulted ⟨failure.cause, s.pc, some i.opcode⟩ { s.advance with stack := failure.stack } := by
  have hoperand : ¬ (i.opcode.operandKind = .none ∧ i.operand ≠ .null) := fun h => h.2 (hi h.1)
  refine (if_neg hoperand).trans ?_
  cases i.exec s.stack <;> rfl

end State

/-! ### In a run -/

namespace Program

variable {p : Program} {k : Nat} {s t : State} {i : Instruction} {f : Fault}

theorem ComesTo.stateAfter_iff {item : Item} (hc : p.ComesTo k s item) :
    p.stateAfter (k + 1) = some t ↔ s.step item = .moved t := by
  rw [stateAfter_succ_eq_some_iff]
  constructor
  · rintro ⟨u, other, hu, hstep⟩
    obtain ⟨rfl, rfl⟩ := hu.unique hc
    exact hstep
  · intro hstep
    exact ⟨s, item, hc, hstep⟩

section

variable (hc : p.ComesTo k s (.instruction i)) (hi : i.opcode.operandKind = .none → i.operand = .null)
include hc hi

/-- An instruction that a run comes to is completed exactly if it makes something of the stack. -/
theorem ComesTo.completed_iff :
    p.stateAfter (k + 1) = some t ↔ ∃ stack, i.exec s.stack = .ok stack ∧ t = s.complete i.opcode stack := by
  rw [hc.stateAfter_iff, State.step_of_takenUp hi]
  cases i.exec s.stack with
  | ok stack => simp [eq_comm]
  | error failure => simp

theorem ComesTo.leaves_iff {stack : List Value} :
    (∃ t, p.stateAfter (k + 1) = some t ∧ t.stack = stack) ↔ i.exec s.stack = .ok stack := by
  constructor
  · rintro ⟨t, ht, rfl⟩
    obtain ⟨stack, he, rfl⟩ := (hc.completed_iff hi).mp ht
    exact he
  · intro he
    exact ⟨_, (hc.completed_iff hi).mpr ⟨stack, he, rfl⟩, rfl⟩

/-- A run faults at an instruction that it comes to, other than `HALT`, exactly if the instruction fails and its literal
can be written out. -/
theorem ComesTo.failed_iff (hop : i.opcode ≠ .halt) :
    (p.outcome = .faulted f t ∧ f.index = k) ↔ i.isWritable = true ∧ ∃ failure, i.exec s.stack = .error failure ∧
      f = ⟨failure.cause, k, some i.opcode⟩ ∧ t = { s.advance with stack := failure.stack } := by
  have hne : Item.instruction i ≠ .instruction .halt := by
    intro h
    injection h with h
    exact hop (congrArg Instruction.opcode h)
  rw [faulted_at_iff hc hne, State.step_of_takenUp hi, pc_of_stateAfter hc.state, and_comm]
  refine and_congr_right fun _ => ?_
  cases i.exec s.stack with
  | ok stack => simp
  | error failure => simp [eq_comm]

theorem ComesTo.faultsWith_iff (hop : i.opcode ≠ .halt) (hw : i.isWritable = true) {kind : Report.Kind} :
    p.outcome.FaultsWith kind k (some i.opcode) ↔
      ∃ failure, i.exec s.stack = .error failure ∧ failure.cause.kind = kind := by
  rw [Outcome.faultsWith_iff]
  constructor
  · rintro ⟨f, t, ho, hkind, hk, -⟩
    obtain ⟨-, failure, he, rfl, -⟩ := (hc.failed_iff hi hop).mp ⟨ho, hk⟩
    exact ⟨failure, he, hkind⟩
  · rintro ⟨failure, he, hkind⟩
    obtain ⟨ho, hk⟩ := (hc.failed_iff hi hop).mpr ⟨hw, failure, he, rfl, rfl⟩
    exact ⟨_, _, ho, hkind, hk, rfl⟩

private theorem halt_of_comesTo (hop : i.opcode = .halt) :
    ∃ t, p.stateAfter (k + 1) = some t ∧ t.stack = s.stack ∧ t.haltIndex = some k := by
  have hexec : i.exec s.stack = .ok s.stack := by simp [Instruction.exec, hop]
  refine ⟨_, (hc.completed_iff hi).mpr ⟨_, hexec, rfl⟩, rfl, ?_⟩
  rw [State.complete_haltIndex, if_pos hop, pc_of_stateAfter hc.state]

private theorem stack_of_completed (ht : p.stateAfter (k + 1) = some t) :
    i.opcode.pops ≤ s.stack.length ∧
      ∃ given, given.length = i.opcode.pushes ∧ t.stack = given ++ s.stack.drop i.opcode.pops := by
  obtain ⟨stack, he, rfl⟩ := (hc.completed_iff hi).mp ht
  rcases exec_law hi s.stack with ⟨-, hlaw⟩ | ⟨hle, given, hgiven, hlaw⟩ | ⟨-, cause, -, hlaw⟩
  · rw [hlaw] at he
    cases he
  · rw [hlaw] at he
    injection he with he
    exact ⟨hle, given, hgiven, he.symm⟩
  · rw [hlaw] at he
    cases he

private theorem stack_of_failed (hop : i.opcode ≠ .halt) (h : p.outcome = .faulted f t) (hk : f.index = k) :
    (f.report.kind = .stackUnderflow ∧ s.stack.length < i.opcode.pops ∧ t.stack = s.stack) ∨
      (f.report.kind ≠ .stackUnderflow ∧ t.stack = s.stack.drop i.opcode.pops) := by
  obtain ⟨-, failure, he, rfl, rfl⟩ := (hc.failed_iff hi hop).mp ⟨h, hk⟩
  rcases exec_law hi s.stack with ⟨hlt, hlaw⟩ | ⟨-, given, -, hlaw⟩ | ⟨hle, cause, hkind, hlaw⟩
  · rw [hlaw] at he
    injection he with he
    subst he
    exact .inl ⟨rfl, hlt, rfl⟩
  · rw [hlaw] at he
    cases he
  · rw [hlaw] at he
    injection he with he
    subst he
    exact .inr ⟨hkind, rfl⟩

private theorem faultsWith_underflow_iff (hop : i.opcode ≠ .halt) :
    p.outcome.FaultsWith .stackUnderflow k (some i.opcode) ↔ s.stack.length < i.opcode.pops := by
  constructor
  · intro h
    obtain ⟨f, t, ho, hkind, hk, -⟩ := Outcome.faultsWith_iff.mp h
    rcases stack_of_failed hc hi hop ho hk with ⟨-, hlt, -⟩ | ⟨hne, -⟩
    · exact hlt
    · exact absurd hkind hne
  · intro hlt
    -- an instruction that takes values has no operand, so there is nothing that could not be written out
    have hnone : i.opcode.operandKind = .none := by
      obtain ⟨op, operand⟩ := i
      cases op <;> first | rfl | exact absurd hlt (Nat.not_lt_zero _)
    have hw : i.isWritable = true := by
      rw [Instruction.isWritable, hi hnone]
      rfl
    exact (hc.faultsWith_iff hi hop hw).mpr ⟨_, exec_of_length_lt hlt, rfl⟩

private theorem completed_or_failed (hop : i.opcode ≠ .halt) (hw : i.isWritable = true) :
    (∃ t, p.stateAfter (k + 1) = some t) ∨ ∃ f t, p.outcome = .faulted f t ∧ f.index = k := by
  cases he : i.exec s.stack with
  | ok stack => exact .inl ⟨_, (hc.completed_iff hi).mpr ⟨stack, he, rfl⟩⟩
  | error failure => exact .inr ⟨_, _, (hc.failed_iff hi hop).mpr ⟨hw, failure, he, rfl, rfl⟩⟩

end

/-- An instruction that a run comes to, other than `HALT`, is a fault for want of values exactly if the stack holds fewer
than it takes, and then the stack is left alone. If it fails for any other reason, the values that it takes are gone, and
if it is completed, as many as it gives lie in their place; what was below them still is. A `HALT` is completed and leaves
the stack alone. -/
theorem stack_law (p : Program) (k : Nat) (s : State) (i : Instruction) (hc : p.ComesTo k s (.instruction i))
    (hi : i.opcode.operandKind = .none → i.operand = .null) :
    (i.opcode = .halt → ∃ t, p.stateAfter (k + 1) = some t ∧ t.stack = s.stack ∧ t.haltIndex = some k) ∧
    (i.opcode ≠ .halt →
      (p.outcome.FaultsWith .stackUnderflow k (some i.opcode) ↔ s.stack.length < i.opcode.pops) ∧
      (∀ f t, p.outcome = .faulted f t → f.index = k →
        t.stack = if f.report.kind = .stackUnderflow then s.stack else s.stack.drop i.opcode.pops) ∧
      (∀ t, p.stateAfter (k + 1) = some t → i.opcode.pops ≤ s.stack.length ∧
        ∃ given, given.length = i.opcode.pushes ∧ t.stack = given ++ s.stack.drop i.opcode.pops) ∧
      (i.isWritable = true →
        (∃ t, p.stateAfter (k + 1) = some t) ∨ ∃ f t, p.outcome = .faulted f t ∧ f.index = k)) := by
  refine ⟨halt_of_comesTo hc hi, fun hop => ⟨faultsWith_underflow_iff hc hi hop, ?_, fun t => stack_of_completed hc hi,
    completed_or_failed hc hi hop⟩⟩
  intro f t h hk
  rcases stack_of_failed hc hi hop h hk with ⟨hkind, -, hstack⟩ | ⟨hkind, hstack⟩
  · rw [if_pos hkind, hstack]
  · rw [if_neg hkind, hstack]

/-- A product takes both its factors off the stack before it finds that the deeper one is a text. -/
theorem stack_law_product :
    let p : Program := ⟨"area", [.pushInt (.int 3), .pushStr (.text "7"), .pushInt (.int 9), .mul].map .instruction⟩
    let s : State := ⟨3, 3, [.int 9, .text "7", .int 3], 3, none⟩
    let f : Fault := ⟨.textOperand .mul "7", 3, some .mul⟩
    let t : State := ⟨4, 4, [.int 3], 3, none⟩
    p.ComesTo 3 s (.instruction .mul) ∧ p.outcome = .faulted f t ∧ t.stack = s.stack.drop 2 ∧
      ¬ p.outcome.FaultsWith .stackUnderflow 3 (some .mul) := by
  intro p s f t
  have hc : p.ComesTo 3 s (.instruction .mul) := ⟨by decide, rfl, rfl⟩
  have h : p.outcome = .faulted f t := by decide
  obtain ⟨hunderflow, hstack, -⟩ := (stack_law p 3 s .mul hc (fun _ => rfl)).2 (by decide)
  refine ⟨hc, h, hstack f t h rfl, ?_⟩
  intro hfault
  exact absurd (hunderflow.mp hfault) (by decide)

end Program

end StackMachine
