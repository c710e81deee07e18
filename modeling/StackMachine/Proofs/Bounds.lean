import StackMachine.Proofs.Conclusion

/-!
# Bounds on the states of a run

In every state of a run the integers on the stack are words, the position of the next item is the number of steps, and
there are at most as many values as there were steps (`State.Bounded`). A completed step keeps this
(`State.Bounded.step_moved`), and so does a step that ends the run, whatever it leaves of the stack
(`State.Bounded.step_faulted`). So it holds from the start to the outcome (`bounded_states`).
-/

namespace StackMachine

/-- The bounds on a state in a run of `size` items. -/
structure State.Bounded (size : Nat) (s : State) : Prop where
  word (n : Int) : .int n ∈ s.stack → Word.least ≤ n ∧ n ≤ Word.greatest
  pc : s.pc = s.steps
  steps : s.steps ≤ size
  depth : s.stack.length ≤ s.steps
  maxDepth : s.maxDepth ≤ s.steps

/-! ### One step -/

theorem wordStack_iff {stack : List Value} :
    WordStack stack ↔ ∀ n, .int n ∈ stack → Word.least ≤ n ∧ n ≤ Word.greatest := by
  constructor
  · intro h n hn
    exact Word.fits_iff.mp (h _ hn)
  · intro h v hv
    cases v with
    | int n => exact Word.fits_iff.mpr (h n hv)
    | text s => trivial

theorem Opcode.pushes_le (op : Opcode) : op.pushes ≤ op.pops + 1 := by
  cases op <;> decide

/-- An instruction makes the stack higher by one value at most. -/
theorem length_le_of_exec_ok {i : Instruction} (hi : i.WellFormed) {stack stack' : List Value}
    (h : i.exec stack = .ok stack') : stack'.length ≤ stack.length + 1 := by
  rcases exec_cases hi stack with ⟨-, he⟩ | ⟨hle, given, hgiven, he⟩ | ⟨-, cause, -, he⟩
  · rw [he] at h
    cases h
  · rw [he] at h
    injection h with h
    have := i.opcode.pushes_le
    rw [← h, List.length_append, List.length_drop, hgiven]
    omega
  · rw [he] at h
    cases h

namespace State.Bounded

variable {size : Nat} {s t : State} {item : Item} {f : Fault}

theorem start : State.start.Bounded size :=
  ⟨by simp [State.start], rfl, Nat.zero_le _, Nat.le_refl _, Nat.le_refl _⟩

theorem step_moved (hs : s.Bounded size) (hlt : s.steps < size) (h : s.step item = .moved t) : t.Bounded size := by
  have hwords := step_moved_wordStack (wordStack_iff.mpr hs.word) h
  -- the rest is counting: one step and one position more, and at most one value
  obtain ⟨i, stack, -, hi, he, rfl⟩ := State.step_moved h
  have hlen := length_le_of_exec_ok hi he
  have hpc := hs.pc
  have hdepth := hs.depth
  have hmax := hs.maxDepth
  refine ⟨wordStack_iff.mp hwords, ?_, ?_, ?_, ?_⟩ <;>
    simp only [complete_pc, complete_steps, complete_stack, complete_maxDepth] <;> omega

/-- What is left of the stack lay at its bottom, so nothing new comes with a fault. -/
theorem step_faulted (hs : s.Bounded size) (hlt : s.steps < size) (h : s.step item = .faulted f t) :
    t.Bounded size := by
  rcases step_faulted_cases h with ⟨-, rfl⟩ | ⟨-, stack, hsuffix, rfl⟩
  · exact hs
  · have hlen := hsuffix.length_le
    refine ⟨fun n hn => hs.word n (hsuffix.subset hn), congrArg (· + 1) hs.pc, hlt, ?_, ?_⟩
    · exact Nat.le_succ_of_le (Nat.le_trans hlen hs.depth)
    · exact Nat.le_succ_of_le hs.maxDepth

end State.Bounded

/-! ### The whole run -/

namespace Program

variable {p : Program} {k : Nat} {s : State}

theorem steps_lt_of_comesTo {item : Item} (h : p.ComesTo k s item) : s.steps < p.size :=
  steps_of_stateAfter h.state ▸ h.lt_size

theorem bounded_of_stateAfter (h : p.stateAfter k = some s) : s.Bounded p.size :=
  stateAfter_induction (P := fun _ s => s.Bounded p.size) State.Bounded.start
    (fun _ _ _ _ hc hs hstep => hs.step_moved (steps_lt_of_comesTo hc) hstep) h

theorem length_le_maxDepth_of_stateAfter (h : p.stateAfter k = some s) : s.stack.length ≤ s.maxDepth := by
  refine stateAfter_induction (P := fun _ s => s.stack.length ≤ s.maxDepth) (Nat.le_refl _)
    (fun k s item t _ _ hstep => ?_) h
  obtain ⟨i, stack, -, -, -, rfl⟩ := State.step_moved hstep
  exact Nat.le_max_right ..

/-- The state after `k` instructions has taken `k` steps and keeps within the bounds; the events show these states. A
fault leaves a state within the bounds, too. A run that succeeds ends in one of its states; its value is a word, and it
has held at least that value. -/
theorem bounded_states (p : Program) :
    (∀ k s, p.stateAfter k = some s → s.steps = k ∧ s.Bounded p.size) ∧
    (∀ e ∈ p.run.events, ∃ s, p.stateAfter (e.index + 1) = some s ∧ s.stack = e.stack) ∧
    (∀ f s, p.outcome = .faulted f s → s.Bounded p.size) ∧
    ∀ v s, p.outcome = .halted v s →
      p.stateAfter s.steps = some s ∧ s.Bounded p.size ∧ (Word.least ≤ v ∧ v ≤ Word.greatest) ∧
        1 ≤ s.maxDepth ∧ s.maxDepth ≤ s.steps ∧ s.steps ≤ p.size := by
  refine ⟨fun k s h => ⟨steps_of_stateAfter h, bounded_of_stateAfter h⟩, ?_, ?_, ?_⟩
  · intro e he
    obtain ⟨k, hk⟩ := List.mem_iff_getElem?.mp he
    rw [events_getElem?] at hk
    obtain ⟨s, hs, hk⟩ := Option.bind_eq_some_iff.mp hk
    obtain ⟨item, -, rfl⟩ := Option.map_eq_some_iff.mp hk
    exact ⟨s, hs, rfl⟩
  · intro f s h
    have hconcludes := p.concludes
    rw [h] at hconcludes
    cases hconcludes with
    | result hs => exact bounded_of_stateAfter hs
    | fault hc hstep => exact (bounded_of_stateAfter hc.state).step_faulted (steps_lt_of_comesTo hc) hstep
  · intro v s h
    have hconcludes := p.concludes
    rw [h] at hconcludes
    cases hconcludes with
    | value hs _ hstack =>
      have hbounded := bounded_of_stateAfter hs
      have hdepth := length_le_maxDepth_of_stateAfter hs
      rw [hstack] at hdepth
      exact ⟨steps_of_stateAfter hs ▸ hs, hbounded, hbounded.word v (by rw [hstack]; exact List.mem_singleton_self _),
        hdepth, hbounded.maxDepth, hbounded.steps⟩

end Program

end StackMachine
