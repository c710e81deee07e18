import StackMachine.Proofs.Agreement

/-!
# Rejected programs

What the checker rejects fails when it is run, and not later than at the place of the rejection, with a fault of the
same nature; only a value on the stack, or a `HALT` in front of a malformed item, can come first. The exception is code
behind `HALT`: it changes nothing (`outcome_of_rejected`).
-/

namespace StackMachine

open Validation

/-- The outcome is a fault in front of the given place for which a value on the stack is to blame. -/
def Outcome.ValueFaultBefore (index : Nat) : Outcome → Prop
  | .faulted f _ => f.report.kind ∈ Report.Kind.valueFaults ∧ f.index < index
  | _ => False

/-- The outcome is that of a run that was over before it came to the given position. -/
def Outcome.IsBefore (index : Nat) : Outcome → Prop
  | .halted _ s => s.steps ≤ index
  | .faulted f _ => f.index < index
  | .unwritable => True

/-- The run is over before it comes to the given position, and what stands there has no part in it. -/
structure Program.EndsBefore (p : Program) (index : Nat) : Prop where
  outcome : p.outcome.IsBefore index
  run : ∀ rest, ({ p with items := p.items.take index ++ rest } : Program).run = p.run

private theorem run_eq_of_walk_eq {name : String} {a b : List Item} (h : State.start.walk a = State.start.walk b) :
    (⟨name, a⟩ : Program).run = (⟨name, b⟩ : Program).run := by
  simp only [Program.run, h]

/-- A run that comes to a `HALT` ignores what stands behind it. -/
private theorem walk_append_of_halt (a b : List Item) :
    State.start.walk (a ++ [.instruction .halt] ++ b) = State.start.walk (a ++ [.instruction .halt]) := by
  refine State.walk_append_of_closed rfl (fun t ht hn => ?_) b
  obtain ⟨done, rest, hsplit, -, -, -, hend⟩ := State.walk_stopped rfl ht
  rcases hend with ⟨-, rfl, hnot⟩ | ⟨before, -, -, hsome⟩
  · rw [List.append_nil] at hsplit
    exact hnot (hsplit ▸ by simp)
  · rw [hsome] at hn
    cases hn

private theorem ofFault_isBefore {f : Fault} {index : Nat} (h : f.index < index) (s : State) :
    (Outcome.ofFault f s).IsBefore index := by
  unfold Outcome.ofFault
  split
  · exact h
  · trivial

theorem isBefore_of_closed {items : List Item}
    (hclosed : ∀ t, (State.start.walk items).2 = .stopped t → t.haltIndex ≠ none) (name : String) :
    ((State.start.walk items).2.outcome name).IsBefore items.length := by
  cases hw : (State.start.walk items).2 with
  | faulted f t =>
    obtain ⟨done, item, rest, u, rfl, -, -, hpc, hstep⟩ := State.walk_faulted rfl hw
    refine ofFault_isBefore ?_ t
    rw [(State.step_faulted hstep).1, hpc, List.length_append, List.length_cons]
    show 0 + done.length < _
    omega
  | stopped t =>
    obtain ⟨hsteps, hle, -⟩ := run_stopped hw
    obtain ⟨done, rest, rfl, -, -, -, ⟨hn, -, -⟩ | ⟨before, rfl, -, hsome⟩⟩ := State.walk_stopped rfl hw
    · exact absurd hn (hclosed t hw)
    · have hindex : t.haltIndex.getD t.pc < (before ++ [Item.instruction .halt] ++ rest).length := by
        rw [hsome, List.length_append, List.length_append]
        show 0 + before.length < before.length + 1 + rest.length
        omega
      show (t.outcome name).IsBefore _
      unfold State.outcome
      split
      · exact hsteps ▸ hle
      · exact ofFault_isBefore hindex t
      · exact ofFault_isBefore hindex t

/-! ### The kinds of rejection -/

private theorem outcome_of_empty {p : Program} (h : p.items = []) :
    p.outcome.FaultsWith .incompleteProgram 0 none := by
  have hw : (State.start.walk p.items).2 = .stopped State.start := by rw [h]; rfl
  rw [outcome_of_stopped hw, outcome_of_length_ne wordStack_nil (by simp [State.start])]
  exact ⟨rfl, rfl, rfl⟩

private theorem outcome_of_malformed {p : Program} {before rest : List Item} {item : Item} {violation : Violation}
    {op : Option Opcode} (hp : p.items = before ++ item :: rest) (hr : Rejected item violation op)
    (hw : violation.isWritable = true) :
    (∀ e ∈ p.run.events, e.index < before.length) ∧
      ∃ cause : Cause, SameComplaint violation cause ∧
        (p.EndsBefore before.length ∨ p.outcome.FaultsWith cause.kind before.length op) := by
  have hevents : ∀ e ∈ (State.start.walk before).1, e.index < before.length := fun e he => by
    have := State.index_lt_of_mem_walk he
    simpa [State.start] using this
  obtain ⟨name, items⟩ := p
  obtain rfl : items = before ++ item :: rest := hp
  by_cases hopen : ∃ t, (State.start.walk before).2 = .stopped t ∧ t.haltIndex = none
  · -- the run comes to the item and fails there
    obtain ⟨t, ht, hn⟩ := hopen
    have hpc : t.pc = before.length := (run_stopped ht).2.2.2.2.1 hn
    obtain ⟨cause, u, hstep, hsame, -, -⟩ := hr.step t
    have hwalk : State.start.walk (before ++ item :: rest) =
        ((State.start.walk before).1, .faulted ⟨cause, t.pc, op⟩ u) := by
      rw [State.walk_append_of_open ht hn, State.walk_cons_faulted hstep, List.append_nil]
    have houtcome : Program.outcome ⟨name, before ++ item :: rest⟩ = .faulted ⟨cause, t.pc, op⟩ u := by
      simp only [Program.outcome, Program.run, hwalk, Ending.outcome]
      exact Outcome.ofFault_of_isWritable (hsame.1.trans hw) u
    refine ⟨by simpa only [Program.run, hwalk] using hevents, cause, hsame, .inr ?_⟩
    rw [houtcome]
    exact ⟨rfl, hpc, rfl⟩
  · -- the run ends before it comes to the item
    have hclosed : ∀ t, (State.start.walk before).2 = .stopped t → t.haltIndex ≠ none :=
      fun t ht hn => hopen ⟨t, ht, hn⟩
    have hwalk : ∀ left, State.start.walk (before ++ left) = State.start.walk before :=
      State.walk_append_of_closed rfl hclosed
    obtain ⟨cause, -, -, hsame, -, -⟩ := hr.step State.start
    refine ⟨by simpa only [Program.run, hwalk] using hevents, cause, hsame, .inl ⟨?_, fun left => ?_⟩⟩
    · simp only [Program.outcome, Program.run, hwalk]
      exact isBefore_of_closed hclosed name
    · apply run_eq_of_walk_eq
      rw [hwalk, List.take_left, hwalk]

private theorem outcome_of_depth {p : Program} (hwf : ∀ item ∈ p.items, item.WellFormed) {r : Rejection} {i : Nat}
    (hi : r.index = some i) (hf : Foretells p.size (.error r) (State.start.walk p.items).2) :
    p.outcome.ValueFaultBefore i ∨
      (r.violation.kind = .stackUnderflow ∧ p.outcome.FaultsWith .stackUnderflow i r.opcode) ∨
      (r.violation.kind = .badFinalDepth ∧ p.outcome.FaultsWith .incompleteProgram i r.opcode) ∨
      r.violation.kind = .unreachableCode := by
  have hwords := (State.walk_wordStack State.wordStack_start p.items).2.1
  generalize hw : (State.start.walk p.items).2 = ending at hf
  cases hf with
  | valueFault hkind _ hbefore _ =>
    rw [outcome_of_faulted hwf hw]
    exact .inl ⟨hkind, hbefore _ i rfl hi⟩
  | underflow op depth needed j t =>
    rw [outcome_of_faulted hwf hw]
    exact .inr (.inl ⟨rfl, rfl, Option.some.inj hi, rfl⟩)
  | depthAtHalt hdepth hhalt =>
    rw [outcome_of_stopped hw, outcome_of_length_ne (hwords _ hw) hdepth, hhalt]
    exact .inr (.inr (.inl ⟨rfl, rfl, Option.some.inj hi, rfl⟩))
  | depthAtEnd hdepth hhalt hpc =>
    rw [outcome_of_stopped hw, outcome_of_length_ne (hwords _ hw) hdepth, hhalt]
    exact .inr (.inr (.inl ⟨rfl, rfl, hpc.trans (Option.some.inj hi), rfl⟩))
  | unreachable => exact .inr (.inr (.inr rfl))

private theorem upTo_of_unreachable {p : Program} {before rest : List Instruction} {i next : Instruction}
    {summary : Summary} (hp : p.items = (before ++ i :: next :: rest).map .instruction)
    (hwf : ∀ j ∈ before ++ i :: next :: rest, j.WellFormed) (hi : i.opcode = .halt)
    (hok : followDepth 0 0 0 (before ++ [i]) = .ok summary) :
    (p.upTo (before.length + 1)).validate = .accepted summary ∧ (p.upTo (before.length + 1)).run = p.run := by
  have hsplit : p.items = (before ++ [i]).map .instruction ++ (next :: rest).map .instruction := by
    rw [hp, ← List.map_append, List.append_assoc]
    rfl
  have hitems : (p.upTo (before.length + 1)).items = (before ++ [i]).map .instruction := by
    show p.items.take (before.length + 1) = _
    rw [hsplit, List.take_left' (by simp)]
  constructor
  · rw [validate_eq_accepted_iff, check_of_wellFormed hitems (by simp) fun j hj => hwf j (by simp at hj ⊢; grind)]
    exact hok
  · obtain ⟨name, items⟩ := p
    apply run_eq_of_walk_eq
    show State.start.walk (Program.upTo ⟨name, items⟩ (before.length + 1)).items = State.start.walk items
    rw [hitems, show items = _ from hsplit, (hwf i (by simp)).eq_halt hi, List.map_append]
    exact (walk_append_of_halt ..).symm

/-! ### The run of a rejected program -/

/-- The kind of the rejection foretells the kind of the fault, and its place and its operation are those of the fault,
unless a value on the stack is to blame for a fault in front of it. A malformed item is never executed; if the run does
not fail at it, then nothing from it on has a part in the run. Without the code behind `HALT` the program is accepted,
and the run is the same. -/
theorem outcome_of_rejected (p : Program) (r : Rejection) (h : p.validate = .rejected r) :
    match r.violation.kind with
    | .emptyProgram => p.outcome.FaultsWith .incompleteProgram 0 none
    | .invalidOpcode | .invalidOperand => ∃ i, r.index = some i ∧ (∀ e ∈ p.run.events, e.index < i) ∧
        (p.EndsBefore i ∨ p.outcome.FaultsWith .invalidInstruction i r.opcode)
    | .operandOutOfRange => ∃ i, r.index = some i ∧ (∀ e ∈ p.run.events, e.index < i) ∧
        (p.EndsBefore i ∨ p.outcome.FaultsWith .arithmeticOverflow i r.opcode)
    | .stackUnderflow => ∃ i op, r.index = some i ∧ r.opcode = some op ∧
        (p.outcome.FaultsWith .stackUnderflow i (some op) ∨ p.outcome.ValueFaultBefore i)
    | .badFinalDepth => ∃ i, r.index = some i ∧
        ((p.items[i]? = some (.instruction .halt) ∧
            (p.outcome.FaultsWith .incompleteProgram i (some .halt) ∨ p.outcome.ValueFaultBefore i)) ∨
          (i = p.size ∧ (p.outcome.FaultsWith .incompleteProgram i none ∨ p.outcome.ValueFaultBefore i)))
    | .unreachableCode => ∃ i, r.index = some i ∧ (∃ summary, (p.upTo i).validate = .accepted summary) ∧
        (p.upTo i).run = p.run := by
  obtain ⟨hcheck, hw⟩ := validate_eq_rejected_iff.mp h
  rcases check_cases p with ⟨hp, hc⟩ | ⟨before, item, rest, violation, op, hp, hr, hc⟩ | ⟨is, hne, hp, hwf, hc⟩
  · rw [hc] at hcheck
    injection hcheck with hcheck
    subst hcheck
    exact outcome_of_empty hp
  · rw [hc] at hcheck
    injection hcheck with hcheck
    subst hcheck
    -- the first two passes
    obtain ⟨hevents, cause, ⟨-, hkind⟩, hrun⟩ := outcome_of_malformed hp hr hw
    rcases hkind with ⟨hv | hv, hk⟩ | ⟨hv, hk⟩
    all_goals
      rw [hk] at hrun
      simp only [hv]
      exact ⟨before.length, rfl, hevents, hrun⟩
  · -- the third pass
    have hwf' : ∀ item ∈ p.items, item.WellFormed := by
      rw [hp]
      exact wellFormed_map.mpr hwf
    have hf := check_foretells (fun he => hne (List.map_eq_nil_iff.mp (hp ▸ he))) hwf'
    rw [hcheck] at hf
    rw [hc] at hcheck
    rcases followDepth_error hcheck with ⟨before, i, rest, found, -, rfl⟩ | ⟨before, i, rest, found, rfl, hi, rfl⟩ |
      ⟨found, rfl⟩ | ⟨before, i, next, rest, summary, rfl, hi, hok, rfl⟩
    · refine ⟨_, _, rfl, rfl, ?_⟩
      rcases outcome_of_depth hwf' rfl hf with ho | ⟨-, ho⟩ | ⟨hv, -⟩ | hv
      · exact .inr ho
      · exact .inl ho
      · cases hv
      · cases hv
    · refine ⟨_, rfl, .inl ⟨?_, ?_⟩⟩
      · rw [hp, (hwf i (by simp)).eq_halt hi, Nat.zero_add, List.map_append,
          List.getElem?_append_right (by simp)]
        simp
      · rcases outcome_of_depth hwf' rfl hf with ho | ⟨hv, -⟩ | ⟨-, ho⟩ | hv
        · exact .inr ho
        · cases hv
        · exact .inl ho
        · cases hv
    · refine ⟨_, rfl, .inr ⟨by simp [Program.size, hp], ?_⟩⟩
      rcases outcome_of_depth hwf' rfl hf with ho | ⟨hv, -⟩ | ⟨-, ho⟩ | hv
      · exact .inr ho
      · cases hv
      · exact .inl ho
      · cases hv
    · obtain ⟨haccepted, hrun⟩ := upTo_of_unreachable hp hwf hi hok
      refine ⟨before.length + 1, by rw [Nat.zero_add], ⟨summary, haccepted⟩, hrun⟩

/-- A text that is no numeral is read before the stack is found too short. -/
theorem outcome_of_rejected_text :
    let p : Program := ⟨"text", [.pushStr (.text "6a"), .toInt, .add].map .instruction⟩
    p.validate = .rejected ⟨.underflow 1 2, some 2, some .add⟩ ∧
      ∃ i op, some 2 = some i ∧ some Opcode.add = some op ∧
        (p.outcome.FaultsWith .stackUnderflow i (some op) ∨ p.outcome.ValueFaultBefore i) :=
  ⟨by decide, outcome_of_rejected _ ⟨.underflow 1 2, some 2, some .add⟩ (by decide)⟩

end StackMachine
