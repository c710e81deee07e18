import StackMachine.Proofs.Rejection

/-!
# Replacing a subprogram by its value

What an item makes of a state depends on the stack alone, so two walks from states with the same stack end alike, at
corresponding positions (`State.walk_alike`). And a walk that succeeds on a stack does the same on top of any other
stack (`State.walk_append_stack`). It follows that a subprogram without `HALT` whose run succeeds can be replaced by the
instruction that pushes its value, whatever stands around it (`outcome_replace`).
-/

namespace StackMachine

/-! ### States with the same stack -/

section

variable {place : Nat → Nat → Prop}

/-- The states have the same stack, and their positions are related by `place`. -/
structure State.Alike (place : Nat → Nat → Prop) (s t : State) : Prop where
  stack : s.stack = t.stack
  pc : place s.pc t.pc
  halt : Option.Rel place s.haltIndex t.haltIndex

/-- The faults differ in their positions only, and these are related by `place`. -/
structure Fault.Alike (place : Nat → Nat → Prop) (f g : Fault) : Prop where
  cause : f.cause = g.cause
  opcode : f.opcode = g.opcode
  index : place f.index g.index

inductive Progress.Alike (place : Nat → Nat → Prop) : Progress → Progress → Prop
  | moved {s t : State} (h : s.Alike place t) : Alike place (.moved s) (.moved t)
  | faulted {f g : Fault} {s t : State} (h : f.Alike place g) (stack : s.stack = t.stack) :
    Alike place (.faulted f s) (.faulted g t)

inductive Ending.Alike (place : Nat → Nat → Prop) : Ending → Ending → Prop
  | stopped {s t : State} (h : s.Alike place t) : Alike place (.stopped s) (.stopped t)
  | faulted {f g : Fault} {s t : State} (h : f.Alike place g) (stack : s.stack = t.stack) :
    Alike place (.faulted f s) (.faulted g t)

/-- The outcomes are the same value, or faults that are reported alike, but for their positions, and leave the same
stack. The positions of the faults are related by `place`. -/
inductive Outcome.Alike (place : Nat → Nat → Prop) : Outcome → Outcome → Prop
  | halted (v : Int) (s t : State) : Alike place (.halted v s) (.halted v t)
  | faulted {f g : Fault} {s t : State} (report : f.report = { g.report with index := f.report.index })
    (stack : s.stack = t.stack) (index : place f.index g.index) : Alike place (.faulted f s) (.faulted g t)
  | unwritable : Alike place .unwritable .unwritable

theorem State.step_alike (hplace : ∀ i j, place i j → place (i + 1) (j + 1)) {s t : State} (h : s.Alike place t)
    (item : Item) : (s.step item).Alike place (t.step item) := by
  obtain ⟨hstack, hpc, hhalt⟩ := h
  cases item with
  | unknown | stray => exact .faulted ⟨rfl, rfl, hpc⟩ hstack
  | instruction i =>
    by_cases hoperand : i.opcode.operandKind = .none ∧ i.operand ≠ .null
    · simp only [State.step, hoperand, and_self, ne_eq, not_false_eq_true, ↓reduceIte]
      exact .faulted ⟨rfl, rfl, hpc⟩ hstack
    · simp only [State.step, hoperand, ↓reduceIte, hstack]
      cases i.exec t.stack with
      | error failure => exact .faulted ⟨rfl, rfl, hpc⟩ rfl
      | ok stack =>
        refine .moved ⟨rfl, hplace _ _ hpc, ?_⟩
        rw [State.complete_haltIndex, State.complete_haltIndex]
        split
        · exact .some hpc
        · exact hhalt

/-- From states with the same stack, two walks over the same items end alike. -/
theorem State.walk_alike (hplace : ∀ i j, place i j → place (i + 1) (j + 1)) {s t : State} (h : s.Alike place t)
    (items : List Item) : (s.walk items).2.Alike place (t.walk items).2 := by
  induction items generalizing s t with
  | nil => exact .stopped h
  | cons item rest ih =>
    have hstep := State.step_alike hplace h item
    generalize hs : s.step item = progress, ht : t.step item = progress' at hstep
    cases hstep with
    | faulted hf hstack =>
      rw [walk_cons_faulted hs, walk_cons_faulted ht]
      exact .faulted hf hstack
    | @moved u w hmoved =>
      have hhalt := hmoved.halt
      generalize hu : u.haltIndex = m, hw : w.haltIndex = n at hhalt
      cases hhalt with
      | none =>
        rw [walk_cons_moved hs hu, walk_cons_moved ht hw]
        exact ih hmoved
      | some =>
        rw [walk_cons_halted hs (by simp [hu]), walk_cons_halted ht (by simp [hw])]
        exact .stopped hmoved

theorem Outcome.ofFault_alike {f g : Fault} (h : f.Alike place g) {s t : State} (hstack : s.stack = t.stack) :
    (Outcome.ofFault f s).Alike place (Outcome.ofFault g t) := by
  obtain ⟨hcause, hop, hindex⟩ := h
  unfold Outcome.ofFault
  rw [hcause]
  split
  · exact .faulted (by simp [Fault.report, hcause, hop]) hstack hindex
  · exact .unwritable

theorem State.outcome_alike {s t : State} (h : s.Alike place t) (name : String) :
    (s.outcome name).Alike place (t.outcome name) := by
  obtain ⟨pc, steps, stack, maxDepth, haltIndex⟩ := s
  obtain ⟨pc', steps', stack', maxDepth', haltIndex'⟩ := t
  obtain ⟨hstack, hpc, hhalt⟩ := h
  dsimp only at hstack hpc hhalt
  subst hstack
  have hindex : place (haltIndex.getD pc) (haltIndex'.getD pc') := by
    cases hhalt with
    | none => exact hpc
    | some hi => exact hi
  have hop : (haltIndex.map fun _ => Opcode.halt) = haltIndex'.map fun _ => .halt := by
    cases hhalt <;> rfl
  unfold State.outcome
  dsimp only
  split
  · exact .halted ..
  all_goals
    refine Outcome.ofFault_alike ?_ rfl
    exact ⟨rfl, hop, hindex⟩

theorem Ending.outcome_alike {e e' : Ending} (h : e.Alike place e') (name : String) :
    (e.outcome name).Alike place (e'.outcome name) := by
  cases h with
  | stopped h => exact State.outcome_alike h name
  | faulted h hstack => exact Outcome.ofFault_alike h hstack

theorem Outcome.Alike.mono {place' : Nat → Nat → Prop} (hplace : ∀ i j, place i j → place' i j) {o o' : Outcome}
    (h : o.Alike place o') : o.Alike place' o' := by
  cases h with
  | halted v s t => exact .halted v s t
  | faulted hreport hstack hindex => exact .faulted hreport hstack (hplace _ _ hindex)
  | unwritable => exact .unwritable

theorem Outcome.alike_refl {index : Nat} {o : Outcome} (h : o.IsBefore index) (hplace : ∀ i, i < index → place i i) :
    o.Alike place o := by
  cases o with
  | halted => exact .halted ..
  | faulted f t => exact .faulted rfl rfl (hplace _ h)
  | unwritable => exact .unwritable

end

/-! ### On top of another stack -/

namespace State

private theorem pops_le_of_exec_ok {i : Instruction} {stack stack' : List Value} (h : i.exec stack = .ok stack') :
    i.opcode.pops ≤ stack.length := by
  by_contra hlt
  rw [exec_of_length_lt (Nat.lt_of_not_le hlt)] at h
  cases h

/-- A step that is completed leaves alone what lies below its stack. -/
theorem step_append_stack {s s' u : State} {item : Item} {below : List Value} (h : s.step item = .moved s')
    (hs' : s'.haltIndex = none) (hu : u.haltIndex = none) (hstack : u.stack = s.stack ++ below) :
    ∃ u', u.step item = .moved u' ∧ u'.haltIndex = none ∧ u'.stack = s'.stack ++ below := by
  obtain ⟨i, stack, rfl, hi, he, rfl⟩ := step_moved h
  have hop : i.opcode ≠ .halt := by
    intro hop
    rw [complete_haltIndex, if_pos hop] at hs'
    cases hs'
  have he' : i.exec u.stack = .ok (stack ++ below) := by
    rw [hstack, exec_append (pops_le_of_exec_ok he), he]
    rfl
  refine ⟨_, step_of_exec_ok hi he', ?_, rfl⟩
  rw [complete_haltIndex, if_neg hop, hu]

/-- A walk that succeeds on a stack and meets no `HALT` does the same on top of any other stack. -/
theorem walk_append_stack {s t u : State} {items : List Item} {below : List Value}
    (h : (s.walk items).2 = .stopped t) (ht : t.haltIndex = none) (hu : u.haltIndex = none)
    (hstack : u.stack = s.stack ++ below) :
    ∃ w, (u.walk items).2 = .stopped w ∧ w.haltIndex = none ∧ w.stack = t.stack ++ below ∧
      w.pc = u.pc + items.length := by
  induction items generalizing s u with
  | nil =>
    injection h with h
    subst h
    exact ⟨u, rfl, hu, hstack, rfl⟩
  | cons item rest ih =>
    cases hstep : s.step item with
    | faulted f s' => rw [walk_cons_faulted hstep] at h; cases h
    | moved s' =>
      cases hs' : s'.haltIndex with
      | some n =>
        rw [walk_cons_halted hstep (by simp [hs'])] at h
        injection h with h
        subst h
        rw [hs'] at ht
        cases ht
      | none =>
        rw [walk_cons_moved hstep hs'] at h
        obtain ⟨u', hustep, hu', hstack'⟩ := step_append_stack hstep hs' hu hstack
        obtain ⟨w, hwalk, hw, hwstack, hpc⟩ := ih h hu' hstack'
        refine ⟨w, ?_, hw, hwstack, ?_⟩
        · rw [walk_cons_moved hustep hu']
          exact hwalk
        · rw [hpc, step_moved_pc hustep, List.length_cons]
          omega

end State

/-! ### A subprogram and its value -/

/-- A successful run of a program without `HALT` has executed all of it. -/
private theorem open_of_halted {p : Program} (hp : .instruction .halt ∉ p.items) {v : Int} {s : State}
    (h : p.outcome = .halted v s) :
    (State.start.walk p.items).2 = .stopped s ∧ s.haltIndex = none ∧ s.stack = [.int v] := by
  obtain ⟨hstop, hstack⟩ := stopped_of_halted h
  refine ⟨hstop, ?_, hstack⟩
  obtain ⟨-, -, -, -, -, hhalt⟩ := run_stopped hstop
  rw [hhalt, if_neg]
  intro hget
  exact hp (List.mem_of_getElem? hget)

private theorem step_pushInt {v : Int} (hv : Word.fits v = true) (t : State) :
    t.step (.instruction (.pushInt (.int v))) = .moved (t.complete .pushInt (.int v :: t.stack)) := by
  have hi : (Instruction.pushInt (.int v)).WellFormed := hv
  exact State.step_of_exec_ok hi (Instruction.exec_pushInt_of_fits rfl hv t.stack)

/-- Behind `a`, a subprogram and its value leave the same stack. -/
private theorem walk_replace {p : Program} (hp : .instruction .halt ∉ p.items) {v : Int} {s : State}
    (h : p.outcome = .halted v s) {t : State} (ht : t.haltIndex = none) (r : List Item) :
    Ending.Alike (fun i j => t.pc ≤ j ∧ i + 1 = j + p.size) (t.walk (p.items ++ r)).2
      (t.walk (.instruction (.pushInt (.int v)) :: r)).2 := by
  obtain ⟨hstop, hs, hstack⟩ := open_of_halted hp h
  have hv : Word.fits v = true := by
    have hwords := (State.walk_wordStack State.wordStack_start p.items).2.1 s hstop
    rw [hstack] at hwords
    exact (wordStack_cons.mp hwords).1
  obtain ⟨w, hwalk, hw, hwstack, hwpc⟩ :=
    State.walk_append_stack hstop hs ht (List.nil_append t.stack).symm
  rw [State.walk_append_of_open hwalk hw, State.walk_cons_moved (step_pushInt hv t) ht]
  refine State.walk_alike (fun i j hij => by omega) ⟨?_, ?_, ?_⟩ r
  · rw [hwstack, hstack]
    rfl
  · rw [hwpc, State.complete_pc]
    show t.pc ≤ t.pc + 1 ∧ t.pc + p.size + 1 = t.pc + 1 + p.size
    omega
  · rw [hw, show (t.complete .pushInt (.int v :: t.stack)).haltIndex = none from ht]
    exact .none

/-- A subprogram without `HALT` that succeeds can be replaced by its value between any items: the run has the same value
or the same fault with the same stack. The fault has the same position if it is in front of the subprogram, and is
shifted by the difference in length if it is behind. -/
theorem outcome_replace (a r : List Item) (p : Program) (hp : .instruction .halt ∉ p.items) (v : Int) (s : State)
    (h : p.outcome = .halted v s) (name : String) :
    Outcome.Alike (fun i j => if j < a.length then i = j else i + 1 = j + p.size)
      (Program.outcome ⟨name, a ++ p.items ++ r⟩)
      (Program.outcome ⟨name, a ++ [.instruction (.pushInt (.int v))] ++ r⟩) := by
  simp only [Program.outcome, Program.run, List.append_assoc, List.singleton_append]
  by_cases hopen : ∃ t, (State.start.walk a).2 = .stopped t ∧ t.haltIndex = none
  · obtain ⟨t, hstop, ht⟩ := hopen
    have hpc : t.pc = a.length := (run_stopped hstop).2.2.2.2.1 ht
    rw [State.walk_append_of_open hstop ht, State.walk_append_of_open hstop ht]
    refine (Ending.outcome_alike (walk_replace hp h ht r) name).mono fun i j hij => ?_
    rw [hpc] at hij
    rw [if_neg (Nat.not_lt.mpr hij.1)]
    exact hij.2
  · -- the run is over before it comes to the subprogram
    have hclosed : ∀ t, (State.start.walk a).2 = .stopped t → t.haltIndex ≠ none :=
      fun t ht hn => hopen ⟨t, ht, hn⟩
    rw [State.walk_append_of_closed rfl hclosed, State.walk_append_of_closed rfl hclosed]
    exact Outcome.alike_refl (isBefore_of_closed hclosed name) fun i hi => by rw [if_pos hi]

/-- Digits are joined and read, or the number that they make is pushed: the same division by zero follows. -/
theorem outcome_replace_digits :
    let a : List Item := [.instruction (.pushInt (.int 7))]
    let p : Program := ⟨"digits", [.pushStr (.text "4"), .pushInt (.int 2), .concat, .toInt].map .instruction⟩
    let r : List Item := [.instruction (.pushInt (.int 0)), .instruction .div, .stray .null]
    .instruction .halt ∉ p.items ∧ p.outcome = .halted 42 ⟨4, 4, [.int 42], 2, none⟩ ∧
      Outcome.Alike (fun i j => if j < a.length then i = j else i + 1 = j + p.size)
        (Program.outcome ⟨"quotient", a ++ p.items ++ r⟩)
        (Program.outcome ⟨"quotient", a ++ [.instruction (.pushInt (.int 42))] ++ r⟩) := by
  intro a p r
  have hp : .instruction .halt ∉ p.items := by decide
  have hrun : p.outcome = .halted 42 ⟨4, 4, [.int 42], 2, none⟩ := by decide
  exact ⟨hp, hrun, outcome_replace a r p hp 42 _ hrun "quotient"⟩

end StackMachine
