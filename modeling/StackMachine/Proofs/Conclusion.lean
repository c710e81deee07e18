import StackMachine.Proofs.Agreement
import StackMachine.Proofs.Reachability

/-!
# How a run concludes

A fault arises at one of three stages: when an item is rejected, when an instruction fails, or when the run is over and
does not leave one integer (`Cause.stage`). A rejected item leaves the state as it was, and a failing instruction leaves
a part of the stack (`State.step_faulted_cases`). Whatever a program is made of, its run concludes in one of four ways
(`Program.concludes`), the last of which is a fault at an item that cannot be written out.
-/

namespace StackMachine

/-- The point of a run at which a fault arises. -/
inductive Stage where
  /-- An item is rejected before it is taken up. -/
  | rejection
  /-- An instruction fails. -/
  | execution
  /-- The run is over, and what is left is not one integer. -/
  | result
deriving DecidableEq

/-- The stage at which a cause comes up. -/
def Cause.stage : Cause → Stage
  | unknownItem _ | strayOperand .. => .rejection
  | finalDepth .. | finalText _ => .result
  | _ => .execution

/-! ### What a failing instruction leaves -/

/-- If the effect is a failure, then it is one of an instruction, and what is left lay at the bottom of `stack`. -/
def Effect.LeavesOf (stack : List Value) : Effect → Prop
  | .ok _ => True
  | .error failure => failure.cause.stage = .execution ∧ failure.stack <:+ stack

section

variable {stack rest : List Value}

private theorem pushWord_leavesOf (op : Opcode) (n : Int) (h : rest <:+ stack) :
    (Effect.pushWord op n rest).LeavesOf stack := by
  unfold Effect.pushWord
  split
  · trivial
  · exact ⟨rfl, h⟩

private theorem divide_leavesOf (a b : Int) (h : rest <:+ stack) : (Effect.divide a b rest).LeavesOf stack := by
  unfold Effect.divide
  split
  · exact ⟨rfl, h⟩
  · exact pushWord_leavesOf _ _ h

private theorem parse_leavesOf (text : String) (h : rest <:+ stack) : (Effect.parse text rest).LeavesOf stack := by
  unfold Effect.parse
  split
  · dsimp only
    split
    · exact ⟨rfl, h⟩
    · exact pushWord_leavesOf _ _ h
  · exact ⟨rfl, h⟩

private theorem onIntegers_leavesOf {op : Opcode} {f : Int → Int → List Value → Effect}
    (hf : ∀ a b rest, rest <:+ stack → (f a b rest).LeavesOf stack) : (Effect.onIntegers op f stack).LeavesOf stack := by
  unfold Effect.onIntegers
  split
  · exact hf _ _ _ ⟨[_, _], rfl⟩
  · exact ⟨rfl, ⟨[_, _], rfl⟩⟩
  · exact ⟨rfl, ⟨[_, _], rfl⟩⟩
  · exact ⟨rfl, List.suffix_rfl⟩

end

/-- An instruction that fails, well-formed or not, leaves the stack without the values that it took. -/
theorem exec_leavesOf (i : Instruction) (stack : List Value) : (i.exec stack).LeavesOf stack := by
  obtain ⟨op, operand⟩ := i
  cases op with
  | halt => trivial
  | pushInt =>
    cases hn : operand.integer? with
    | some n =>
      rw [Instruction.exec_pushInt_of_integer? hn]
      exact pushWord_leavesOf _ n List.suffix_rfl
    | none =>
      rw [Instruction.exec_pushInt_of_none hn]
      exact ⟨rfl, List.suffix_rfl⟩
  | pushStr =>
    cases operand with
    | text => trivial
    | null | bool | int | object => exact ⟨rfl, List.suffix_rfl⟩
  | add | sub | mul => exact onIntegers_leavesOf fun a b rest h => pushWord_leavesOf _ _ h
  | div => exact onIntegers_leavesOf fun a b rest h => divide_leavesOf a b h
  | pop | dup =>
    rcases stack with _ | ⟨v, rest⟩
    · exact ⟨rfl, List.suffix_rfl⟩
    · trivial
  | toInt =>
    rcases stack with _ | ⟨n | s, rest⟩
    · exact ⟨rfl, List.suffix_rfl⟩
    · exact ⟨rfl, List.suffix_cons ..⟩
    · exact parse_leavesOf s (List.suffix_cons ..)
  | concat | swap =>
    rcases stack with _ | ⟨v, _ | ⟨w, rest⟩⟩
    · exact ⟨rfl, List.suffix_rfl⟩
    · exact ⟨rfl, List.suffix_rfl⟩
    · trivial

namespace State

/-- All that an item can make of a state when it ends the run: a rejected item is not counted, and an instruction that
fails is counted and takes values off the stack. -/
theorem step_faulted_cases {s t : State} {item : Item} {f : Fault} (h : s.step item = .faulted f t) :
    (f.cause.stage = .rejection ∧ t = s) ∨
      (f.cause.stage = .execution ∧ ∃ stack, stack <:+ s.stack ∧ t = { s.advance with stack := stack }) := by
  cases item with
  | unknown | stray =>
    injection h with hf ht
    exact .inl ⟨hf ▸ rfl, ht.symm⟩
  | instruction i =>
    simp only [step] at h
    split at h
    · -- an operand where none belongs
      injection h with hf ht
      exact .inl ⟨hf ▸ rfl, ht.symm⟩
    · split at h
      · cases h
      · next failure he =>
        have hleaves := exec_leavesOf i s.stack
        rw [he] at hleaves
        injection h with hf ht
        exact .inr ⟨hf ▸ hleaves.1, failure.stack, hleaves.2, ht.symm⟩

end State

/-! ### The four conclusions -/

namespace Program

/-- How a run can conclude after `n` completed instructions. -/
inductive Concludes (p : Program) : Nat → Outcome → Prop
  /-- One integer is left. -/
  | value {n : Nat} {s : State} {v : Int} (state : p.stateAfter n = some s)
    (ended : s.haltIndex ≠ none ∨ n = p.size) (stack : s.stack = [.int v]) : Concludes p n (.halted v s)
  /-- Something else is left. -/
  | result {n : Nat} {s : State} {f : Fault} (state : p.stateAfter n = some s)
    (ended : s.haltIndex ≠ none ∨ n = p.size) (stage : f.cause.stage = .result) : Concludes p n (.faulted f s)
  /-- The run faults at an item. -/
  | fault {n : Nat} {s t : State} {item : Item} {f : Fault} (comes : p.ComesTo n s item)
    (step : s.step item = .faulted f t) : Concludes p n (.faulted f t)
  /-- The run faults at an item that cannot be written out. -/
  | unwritable {n : Nat} {s : State} {item : Item} (comes : p.ComesTo n s item) (item : item.isWritable = false) :
    Concludes p n .unwritable

variable {p : Program} {n : Nat} {s t : State} {item : Item} {f : Fault}

theorem wordStack_of_stateAfter (h : p.stateAfter n = some s) : WordStack s.stack :=
  stateAfter_induction (P := fun _ s => WordStack s.stack) State.wordStack_start
    (fun _ _ _ _ _ hs hstep => State.step_moved_wordStack hs hstep) h

private theorem outcome_of_step_faulted (hc : p.ComesTo n s item) (hstep : s.step item = .faulted f t) :
    p.outcome = .ofFault f t := by
  rw [Program.outcome, Program.run, walk_of_faulted hc hstep]
  rfl

/-- The fault of an item that a run comes to can be reported if the item can be written out, and only then. -/
theorem isWritable_of_step_faulted (hc : p.ComesTo n s item) (hstep : s.step item = .faulted f t) :
    f.cause.isWritable = item.isWritable := by
  rcases wellFormed_or_rejected item with hi | ⟨violation, op, hr⟩
  · rw [State.step_faulted_isWritable hi (wordStack_of_stateAfter hc.state) hstep, hi.isWritable]
  · obtain ⟨cause, u, hstep', ⟨hsame, -⟩, -⟩ := hr.step s
    rw [hstep'] at hstep
    injection hstep with hf
    rw [← hf, ← hr.isWritable_eq, ← hsame]

theorem outcome_of_not_isWritable (hc : p.ComesTo n s item) (hitem : item.isWritable = false) :
    p.outcome = .unwritable := by
  rcases wellFormed_or_rejected item with hi | ⟨violation, op, hr⟩
  · rw [hi.isWritable] at hitem
    cases hitem
  · obtain ⟨cause, t, hstep, -⟩ := hr.step s
    have hw := isWritable_of_step_faulted hc hstep
    rw [outcome_of_step_faulted hc hstep, Outcome.ofFault, hw, hitem]
    rfl

theorem outcome_of_isWritable (hc : p.ComesTo n s item) (hstep : s.step item = .faulted f t)
    (hitem : item.isWritable = true) : p.outcome = .faulted f t := by
  rw [outcome_of_step_faulted hc hstep]
  exact Outcome.ofFault_of_isWritable ((isWritable_of_step_faulted hc hstep).trans hitem) t

/-- Every run concludes in one of the four ways, and has one event for each completed instruction. -/
theorem concludes (p : Program) : p.Concludes p.run.events.length p.outcome := by
  obtain ⟨n, s, hs, hlen, ⟨hover, hstop⟩ | ⟨item, f, t, hc, hstep, -⟩⟩ := ending_cases p
  · rw [hlen, outcome_of_stopped hstop]
    by_cases hone : s.stack.length = 1
    · obtain ⟨v, hv⟩ := List.length_eq_one_iff.mp hone
      cases v with
      | int v =>
        have houtcome : s.outcome p.name = .halted v s := by simp [State.outcome, hv]
        exact houtcome ▸ .value hs hover hv
      | text text => exact outcome_of_text hv p.name ▸ .result hs hover rfl
    · exact outcome_of_length_ne (wordStack_of_stateAfter hs) hone p.name ▸ .result hs hover rfl
  · rw [hlen]
    cases hitem : item.isWritable with
    | true => exact outcome_of_isWritable hc hstep hitem ▸ .fault hc hstep
    | false => exact outcome_of_not_isWritable hc hitem ▸ .unwritable hc hitem

end Program

end StackMachine
