import StackMachine.Proofs.Conclusion

/-!
# What a run does not reach

A run that ends at a `HALT` or at an item that fails has looked at some of the items only (`Outcome.examined?`). What
stands behind them has no part in it: every program of the same name that starts with the same items has the same run
(`run_eq_of_take_eq`).
-/

namespace StackMachine

/-- How many items a run has looked at, if it ended at a `HALT` or at an item that failed. An item that is rejected is
looked at and not counted as a step. -/
def Outcome.examined? : Outcome → Option Nat
  | .halted _ s => s.haltIndex.map fun _ => s.steps
  | .faulted f s =>
    match f.cause.stage with
    | .rejection => some (s.steps + 1)
    | .execution => some s.steps
    | .result => s.haltIndex.map fun _ => s.steps
  | .unwritable => none

namespace Program

variable {p : Program} {m n : Nat} {s : State}

private theorem halted_of_examined (hs : p.stateAfter n = some s) (h : (s.haltIndex.map fun _ => s.steps) = some m) :
    m = n ∧ s.haltIndex ≠ none := by
  obtain ⟨i, hi, hm⟩ := Option.map_eq_some_iff.mp h
  exact ⟨hm.symm.trans (steps_of_stateAfter hs), by rw [hi]; exact Option.some_ne_none i⟩

/-- The items that a run has looked at end with the `HALT` or with the item that failed. -/
private theorem examined_cases (h : p.outcome.examined? = some m) :
    (∃ s, p.stateAfter m = some s ∧ s.haltIndex ≠ none) ∨
      ∃ k s item f t, m = k + 1 ∧ p.ComesTo k s item ∧ s.step item = .faulted f t := by
  have hconcludes := p.concludes
  generalize p.run.events.length = n, p.outcome = outcome at h hconcludes
  cases hconcludes with
  | value hs =>
    obtain ⟨rfl, hhalt⟩ := halted_of_examined hs h
    exact .inl ⟨_, hs, hhalt⟩
  | result hs _ hstage =>
    simp only [Outcome.examined?, hstage] at h
    obtain ⟨rfl, hhalt⟩ := halted_of_examined hs h
    exact .inl ⟨_, hs, hhalt⟩
  | fault hc hstep =>
    refine .inr ⟨n, _, _, _, _, ?_, hc, hstep⟩
    have hsteps := steps_of_stateAfter hc.state
    rcases State.step_faulted_cases hstep with ⟨hstage, rfl⟩ | ⟨hstage, stack, -, rfl⟩
    · simp only [Outcome.examined?, hstage, Option.some.injEq] at h
      omega
    · simp only [Outcome.examined?, hstage, Option.some.injEq] at h
      exact h.symm.trans (congrArg (· + 1) hsteps)
  | unwritable => cases h

private theorem walk_append_of_examined (h : p.outcome.examined? = some m) (rest : List Item) :
    State.start.walk (p.items.take m ++ rest) = State.start.walk (p.items.take m) := by
  rcases examined_cases h with ⟨s, hs, hhalt⟩ | ⟨k, s, item, f, t, rfl, hc, hstep⟩
  · exact walk_append_of_halted hs hhalt rest
  · exact walk_append_of_faulted hc hstep rest

theorem le_size_of_examined (h : p.outcome.examined? = some m) : m ≤ p.size := by
  rcases examined_cases h with ⟨s, hs, -⟩ | ⟨k, s, item, f, t, rfl, hc, -⟩
  · exact le_size_of_stateAfter hs
  · exact hc.lt_size

/-- If a run has ended at a `HALT` or at an item that failed, then every program that starts with the items that were
looked at has the same run: the same events, and the same value or fault in the same state. -/
theorem run_eq_of_take_eq (p q : Program) (m : Nat) (h : p.outcome.examined? = some m) (hname : q.name = p.name)
    (hitems : q.items.take m = p.items.take m) : m ≤ p.size ∧ q.run = p.run := by
  refine ⟨le_size_of_examined h, ?_⟩
  have hwalk : State.start.walk q.items = State.start.walk p.items :=
    calc State.start.walk q.items
        = State.start.walk (p.items.take m ++ q.items.drop m) := by rw [← hitems, List.take_append_drop]
      _ = State.start.walk (p.items.take m) := walk_append_of_examined h _
      _ = State.start.walk (p.items.take m ++ p.items.drop m) := (walk_append_of_examined h _).symm
      _ = State.start.walk p.items := by rw [List.take_append_drop]
  rw [Program.run, Program.run, hwalk, hname]

/-- A text cannot be added to, whatever would follow the addition. -/
theorem run_eq_of_take_eq_fault :
    let items : List Item := [.pushInt (.int 1), .pushStr (.text "1"), .add].map .instruction
    let p : Program := ⟨"sum", items ++ [.instruction .halt]⟩
    let q : Program := ⟨"sum", items ++ [.stray .null, .instruction .halt, .unknown (.int 4) .null]⟩
    p.outcome = .faulted ⟨.textOperand .add "1", 2, some .add⟩ ⟨3, 3, [], 2, none⟩ ∧ p.outcome.examined? = some 3 ∧
      q.run = p.run :=
  ⟨by decide, by decide, (run_eq_of_take_eq _ _ 3 (by decide) rfl rfl).2⟩

end Program

end StackMachine
