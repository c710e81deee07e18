import Mathlib.Logic.ExistsUnique
import StackMachine.Proofs.Conclusion

/-!
# The place of a fault

A run can fault at four sites: at an item that it does not take up, in an instruction, at its `HALT`, and behind the last
item. In the first case the item is not counted as a step, and in the second and third it is, so the position that a
fault names stands in a different relation to the counters at each site (`Program.FaultsAt`). Every fault has one of the
four sites and no other, and whatever stands in front of its position was completed (`fault_site`).

A run faults at the position of an item that it comes to, other than `HALT`, exactly if that item ends it
(`faulted_at_iff`).
-/

namespace StackMachine

/-- Where a run can fault. -/
inductive Site where
  /-- At an item that is not taken up. -/
  | item
  /-- In an instruction. -/
  | operation
  /-- At the `HALT` that ended the run. -/
  | halt
  /-- Behind the last item. -/
  | finish
deriving DecidableEq

/-- The stack is not one integer, and the fault says whether it has the wrong depth or holds a text. -/
def Fault.BlamesStack (f : Fault) (stack : List Value) : Prop :=
  (∀ v, stack ≠ [.int v]) ∧ f.report.kind = if stack.length = 1 then .typeMismatch else .incompleteProgram

/-- The fault `f`, which left the state `s`, names the item and the operation that it has to name if it arose at the
given site of the run. -/
def Program.FaultsAt (p : Program) (f : Fault) (s : State) : Site → Prop
  | .item =>
    f.index = s.steps ∧ s.haltIndex = none ∧ f.report.kind = .invalidInstruction ∧
      ∃ item, p.items[s.steps]? = some item ∧
        ((item.isInstruction = false ∧ f.report.opcode = none) ∨
          ∃ i, item = .instruction i ∧ i.opcode.operandKind = .none ∧ i.operand ≠ .null ∧
            f.report.opcode = some i.opcode.name)
  | .operation =>
    f.index + 1 = s.steps ∧ s.haltIndex = none ∧
      ∃ i t, p.ComesTo f.index t (.instruction i) ∧ (i.opcode.operandKind = .none → i.operand = .null) ∧
        i.exec t.stack = .error ⟨f.cause, s.stack⟩ ∧ f.report.opcode = some i.opcode.name
  | .halt =>
    f.index + 1 = s.steps ∧ s.haltIndex = some f.index ∧ p.items[f.index]? = some (.instruction .halt) ∧
      f.report.opcode = some Opcode.halt.name ∧ f.BlamesStack s.stack
  | .finish =>
    f.index = p.size ∧ s.steps = p.size ∧ s.haltIndex = none ∧ f.report.opcode = none ∧ f.BlamesStack s.stack

/-- The one site that the counters leave for a fault. -/
def Site.ofCounters (size : Nat) (f : Fault) (s : State) : Site :=
  if s.haltIndex.isSome then .halt
  else if f.index < s.steps then .operation
  else if f.index < size then .item
  else .finish

theorem Program.FaultsAt.eq_ofCounters {p : Program} {f : Fault} {s : State} {site : Site} (h : p.FaultsAt f s site) :
    site = .ofCounters p.size f s := by
  unfold Site.ofCounters
  cases site with
  | item =>
    obtain ⟨hindex, hhalt, -, item, hitem, -⟩ := h
    have hlt : s.steps < p.size := (List.getElem?_eq_some_iff.mp hitem).1
    simp [hhalt, hindex, hlt]
  | operation =>
    obtain ⟨hindex, hhalt, -⟩ := h
    have hlt : f.index < s.steps := by omega
    simp [hhalt, hlt]
  | halt =>
    obtain ⟨-, hhalt, -⟩ := h
    simp [hhalt]
  | finish =>
    obtain ⟨hindex, hsteps, hhalt, -⟩ := h
    simp [hhalt, hindex, hsteps]

/-! ### What ends a run -/

namespace State

theorem step_faulted_site {s t : State} {item : Item} {f : Fault} (h : s.step item = .faulted f t) :
    (item.isInstruction = false ∧ f = ⟨.unknownItem item, s.pc, none⟩ ∧ t = s) ∨
    (∃ i, item = .instruction i ∧ i.opcode.operandKind = .none ∧ i.operand ≠ .null ∧
      f = ⟨.strayOperand i.opcode i.operand, s.pc, some i.opcode⟩ ∧ t = s) ∨
    ∃ i failure, item = .instruction i ∧ (i.opcode.operandKind = .none → i.operand = .null) ∧
      i.exec s.stack = .error failure ∧ f = ⟨failure.cause, s.pc, some i.opcode⟩ ∧
      t = { s.advance with stack := failure.stack } := by
  cases item with
  | unknown | stray =>
    injection h with hf ht
    exact .inl ⟨rfl, hf.symm, ht.symm⟩
  | instruction i =>
    right
    by_cases hoperand : i.opcode.operandKind = .none ∧ i.operand ≠ .null
    · left
      simp only [step, hoperand, and_self, ne_eq, not_false_eq_true, ↓reduceIte] at h
      injection h with hf ht
      exact ⟨i, rfl, hoperand.1, hoperand.2, hf.symm, ht.symm⟩
    · right
      simp only [step, hoperand, ↓reduceIte] at h
      have hnull : i.opcode.operandKind = .none → i.operand = .null := by
        intro hkind
        by_contra hne
        exact hoperand ⟨hkind, hne⟩
      split at h
      · cases h
      · next failure he =>
        injection h with hf ht
        exact ⟨i, failure, rfl, hnull, he, hf.symm, ht.symm⟩

theorem outcome_eq_faulted {s t : State} {name : String} {f : Fault} (hs : WordStack s.stack)
    (h : s.outcome name = .faulted f t) :
    t = s ∧ f.index = s.haltIndex.getD s.pc ∧ f.opcode = (s.haltIndex.map fun _ => .halt) ∧
      f.BlamesStack s.stack := by
  by_cases hone : s.stack.length = 1
  · obtain ⟨v, hv⟩ := List.length_eq_one_iff.mp hone
    cases v with
    | int v =>
      have hhalted : s.outcome name = .halted v s := by simp [outcome, hv]
      rw [hhalted] at h
      cases h
    | text text =>
      rw [outcome_of_text hv] at h
      injection h with hf ht
      subst hf ht
      refine ⟨rfl, rfl, rfl, ?_, ?_⟩
      · simp [hv]
      · rw [if_pos hone]
        rfl
  · rw [outcome_of_length_ne hs hone] at h
    injection h with hf ht
    subst hf ht
    refine ⟨rfl, rfl, rfl, ?_, ?_⟩
    · intro v hv
      exact hone (by rw [hv]; rfl)
    · rw [if_neg hone]
      rfl

/-- A walk keeps the greatest depth that the stack had after any of its events. -/
theorem walk_maxDepth (s : State) (items : List Item) :
    match (s.walk items).2 with
    | .stopped t | .faulted _ t => t.maxDepth = ((s.walk items).1.map fun e => e.stack.length).foldl max s.maxDepth := by
  induction items generalizing s with
  | nil => rfl
  | cons item rest ih =>
    cases hstep : s.step item with
    | faulted f t =>
      rw [walk_cons_faulted hstep]
      exact (step_faulted hstep).2
    | moved t =>
      have hdepth : t.maxDepth = max s.maxDepth t.stack.length := by
        obtain ⟨i, stack, -, -, -, rfl⟩ := step_moved hstep
        rfl
      cases hhalt : t.haltIndex with
      | some n =>
        rw [walk_cons_halted hstep (by simp [hhalt])]
        exact hdepth
      | none =>
        have hrest := ih t
        rw [walk_cons_moved hstep hhalt]
        rw [hdepth] at hrest
        exact hrest

end State

namespace Program

variable {p : Program} {k n : Nat} {s t : State} {item : Item} {f : Fault}

/-- A run that has met a `HALT` has just executed it. -/
theorem halt_of_stateAfter (h : p.stateAfter n = some s) (hk : s.haltIndex = some k) :
    n = k + 1 ∧ p.items[k]? = some (.instruction .halt) := by
  cases n with
  | zero =>
    obtain rfl : State.start = s := Option.some.inj h
    cases hk
  | succ m =>
    obtain ⟨t, item, hc, hstep⟩ := stateAfter_succ_eq_some_iff.mp h
    rcases State.step_moved_haltIndex hc.running hstep with ⟨-, hnone⟩ | ⟨rfl, hsome⟩
    · rw [hnone] at hk
      cases hk
    · rw [hsome, pc_of_stateAfter hc.state] at hk
      obtain rfl := Option.some.inj hk
      exact ⟨rfl, hc.item⟩

/-- A run that faults has come to an item that ends it, or it is over and its stack is to blame. -/
theorem faulted_cases (h : p.outcome = .faulted f s) :
    (∃ t item, p.ComesTo p.run.events.length t item ∧ t.step item = .faulted f s) ∨
    (p.stateAfter p.run.events.length = some s ∧ (s.haltIndex ≠ none ∨ p.run.events.length = p.size) ∧
      f.index = s.haltIndex.getD s.pc ∧ f.opcode = (s.haltIndex.map fun _ => .halt) ∧ f.BlamesStack s.stack) := by
  obtain ⟨n, t, ht, hlen, ⟨hended, hstop⟩ | ⟨item, g, u, hc, hstep, -⟩⟩ := ending_cases p
  · right
    rw [outcome_of_stopped hstop] at h
    obtain ⟨rfl, hindex, hopcode, hstack⟩ := State.outcome_eq_faulted (wordStack_of_stateAfter ht) h
    rw [hlen]
    exact ⟨ht, hended, hindex, hopcode, hstack⟩
  · left
    rw [hlen]
    refine ⟨t, item, hc, ?_⟩
    cases hitem : item.isWritable with
    | true =>
      rw [outcome_of_isWritable hc hstep hitem] at h
      injection h with hf hs
      rw [hstep, hf, hs]
    | false =>
      rw [outcome_of_not_isWritable hc hitem] at h
      cases h

/-- A run faults at the position of an item that it comes to exactly if the item ends it and can be written out. At a
`HALT` it could also fault because of its stack. -/
theorem faulted_at_iff (hc : p.ComesTo k t item) (hne : item ≠ .instruction .halt) :
    (p.outcome = .faulted f s ∧ f.index = k) ↔ t.step item = .faulted f s ∧ item.isWritable = true := by
  constructor
  · rintro ⟨h, hk⟩
    have hwritable : item.isWritable = true := by
      by_contra hitem
      rw [outcome_of_not_isWritable hc (by simpa using hitem)] at h
      cases h
    refine ⟨?_, hwritable⟩
    rcases faulted_cases h with ⟨u, other, hu, hstep⟩ | ⟨hs, hended, hindex, -, -⟩
    · -- both are the last state of the run and the item behind it
      have hpc : p.run.events.length = k := by
        rw [← hk, (State.step_faulted hstep).1, pc_of_stateAfter hu.state]
      rw [hpc] at hu
      obtain ⟨rfl, rfl⟩ := hu.unique hc
      exact hstep
    · exfalso
      cases hhalt : s.haltIndex with
      | some j =>
        rw [hhalt, hk] at hindex
        obtain rfl : k = j := hindex
        have hitem := (halt_of_stateAfter hs hhalt).2
        rw [hc.item] at hitem
        exact hne (Option.some.inj hitem)
      | none =>
        have hsize : p.run.events.length = p.size := hended.resolve_left (fun hn => hn hhalt)
        have hlt := hc.lt_size
        rw [hhalt, hk, Option.getD_none, pc_of_stateAfter hs] at hindex
        omega
  · rintro ⟨hstep, hitem⟩
    refine ⟨outcome_of_isWritable hc hstep hitem, ?_⟩
    rw [(State.step_faulted hstep).1, pc_of_stateAfter hc.state]

/-! ### Every fault -/

private theorem exists_faultsAt (h : p.outcome = .faulted f s) : ∃ site, p.FaultsAt f s site := by
  rcases faulted_cases h with ⟨t, item, hc, hstep⟩ | ⟨hs, hended, hindex, hopcode, hstack⟩
  · have hpc := pc_of_stateAfter hc.state
    have hsteps := steps_of_stateAfter hc.state
    have hcount : t.pc = t.steps := hpc.trans hsteps.symm
    have hitem : p.items[t.steps]? = some item := by rw [hsteps]; exact hc.item
    rcases State.step_faulted_site hstep with ⟨hno, rfl, rfl⟩ | ⟨i, rfl, hkind, hoperand, rfl, rfl⟩ |
      ⟨i, failure, rfl, hoperand, he, rfl, rfl⟩
    · exact ⟨.item, hcount, hc.running, rfl, item, hitem, .inl ⟨hno, rfl⟩⟩
    · exact ⟨.item, hcount, hc.running, rfl, _, hitem, .inr ⟨i, rfl, hkind, hoperand, rfl⟩⟩
    · rw [← hpc] at hc
      exact ⟨.operation, congrArg (· + 1) hcount, hc.running, i, t, hc, hoperand, he, rfl⟩
  · have hsteps := steps_of_stateAfter hs
    have hop : f.report.opcode = f.opcode.map Opcode.name := rfl
    cases hhalt : s.haltIndex with
    | some k =>
      obtain ⟨hn, hitem⟩ := halt_of_stateAfter hs hhalt
      rw [hhalt] at hindex hopcode
      obtain rfl : f.index = k := hindex
      exact ⟨.halt, (hsteps.trans hn).symm, hhalt, hitem, by rw [hop, hopcode]; rfl, hstack⟩
    | none =>
      have hsize : p.run.events.length = p.size := hended.resolve_left (fun hn => hn hhalt)
      rw [hhalt] at hindex hopcode
      have hend : f.index = p.size := by rw [hindex, Option.getD_none, pc_of_stateAfter hs, hsize]
      exact ⟨.finish, hend, hsteps.trans hsize, hhalt, by rw [hop, hopcode]; rfl, hstack⟩

private theorem pc_eq_steps_of_faulted (h : p.outcome = .faulted f s) : s.pc = s.steps := by
  rcases faulted_cases h with ⟨t, item, hc, hstep⟩ | ⟨hs, -⟩
  · have hcount : t.pc = t.steps := (pc_of_stateAfter hc.state).trans (steps_of_stateAfter hc.state).symm
    rcases State.step_faulted_cases hstep with ⟨-, rfl⟩ | ⟨-, stack, -, rfl⟩
    · exact hcount
    · exact congrArg (· + 1) hcount
  · rw [pc_of_stateAfter hs, steps_of_stateAfter hs]

private theorem index_le_length_events (h : p.outcome = .faulted f s) : f.index ≤ p.run.events.length := by
  rcases faulted_cases h with ⟨t, item, hc, hstep⟩ | ⟨hs, -, hindex, -⟩
  · exact Nat.le_of_eq ((State.step_faulted hstep).1.trans (pc_of_stateAfter hc.state))
  · have hpc := pc_of_stateAfter hs
    cases hhalt : s.haltIndex with
    | some k =>
      have hk := (halt_of_stateAfter hs hhalt).1
      rw [hhalt, Option.getD_some] at hindex
      omega
    | none =>
      rw [hhalt, Option.getD_none] at hindex
      omega

private theorem maxDepth_of_faulted (h : p.outcome = .faulted f s) :
    s.maxDepth = (p.run.events.map fun e => e.stack.length).foldl max 0 := by
  have hdepth := State.walk_maxDepth .start p.items
  cases hend : (State.start.walk p.items).2 with
  | stopped t =>
    have ht := (State.walk_wordStack State.wordStack_start p.items).2.1 t hend
    rw [outcome_of_stopped hend] at h
    rw [(State.outcome_eq_faulted ht h).1]
    rw [hend] at hdepth
    exact hdepth
  | faulted g t =>
    have hst : s = t := by
      simp only [Program.outcome, Program.run, hend, Ending.outcome, Outcome.ofFault] at h
      split at h
      · injection h with _ hs
        exact hs.symm
      · cases h
    rw [hend] at hdepth
    rw [hst]
    exact hdepth

/-- A fault of a run leaves a state in which every counted step has moved on by one item, and whose greatest depth is that
after any completed instruction. Everything in front of the position of the fault was completed, and the fault has one
site: it blames an item that was not taken up, an instruction that failed, or the stack that was left at the `HALT` or at
the end. -/
theorem fault_site (p : Program) (f : Fault) (s : State) (h : p.outcome = .faulted f s) :
    p.outcome.status = .faulted ∧ f.report.index = some (f.index : Int) ∧ s.pc = s.steps ∧
    s.maxDepth = (p.run.events.map fun e => e.stack.length).foldl max 0 ∧
    (∀ k < f.index, ∃ e, p.run.events[k]? = some e ∧ e.index = k ∧ p.items[k]? = some e.item) ∧
    ∃! site, p.FaultsAt f s site := by
  refine ⟨by rw [h]; rfl, rfl, pc_eq_steps_of_faulted h, maxDepth_of_faulted h, ?_, ?_⟩
  · intro k hk
    have hlt : k < p.run.events.length := Nat.lt_of_lt_of_le hk (index_le_length_events h)
    obtain ⟨e, he⟩ : ∃ e, p.run.events[k]? = some e := ⟨_, List.getElem?_eq_getElem hlt⟩
    have hevent := he
    rw [events_getElem?] at hevent
    obtain ⟨t, -, hshown⟩ := Option.bind_eq_some_iff.mp hevent
    obtain ⟨item, hitem, rfl⟩ := Option.map_eq_some_iff.mp hshown
    exact ⟨_, he, rfl, hitem⟩
  · obtain ⟨site, hsite⟩ := exists_faultsAt h
    refine ⟨site, hsite, ?_⟩
    intro other hother
    rw [hother.eq_ofCounters, hsite.eq_ofCounters]

/-- A division fails on a text that lies below its divisor; the text and the divisor are gone. -/
theorem fault_site_division :
    let p : Program := ⟨"ratio", [.pushInt (.int 6), .pushStr (.text "7"), .dup, .pop, .pushInt (.int 0), .div,
      .halt].map .instruction⟩
    let f : Fault := ⟨.textOperand .div "7", 5, some .div⟩
    let s : State := ⟨6, 6, [.int 6], 3, none⟩
    p.outcome = .faulted f s ∧ s.maxDepth = (p.run.events.map fun e => e.stack.length).foldl max 0 ∧
      ∃! site, p.FaultsAt f s site := by
  intro p f s
  have h : p.outcome = .faulted f s := by decide
  obtain ⟨-, -, -, hdepth, -, hsite⟩ := fault_site p f s h
  exact ⟨h, hdepth, hsite⟩

end Program

end StackMachine
