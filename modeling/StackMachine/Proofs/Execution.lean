import StackMachine.Proofs.StackEffect

/-!
# The execution of a list of items

A step either completes a well-formed instruction or ends the run with a fault at the position of its item
(`step_cases`). A walk over a concatenation is the walk over the first part, followed by the walk over
the second unless the first part ends the run (`walk_append_of_open`, `walk_append_of_closed`). So a walk that stops has
executed a prefix of its items, which is all of them or ends with the first `HALT` (`walk_stopped`), and a walk that
faults has executed all items before the faulty one (`walk_faulted`). What a step keeps, a walk keeps
(`walk_invariant`); in particular the integers on every stack are words.
-/

namespace StackMachine

/-! ### One step -/

namespace State

@[simp] theorem complete_pc (s : State) (op : Opcode) (stack : List Value) : (s.complete op stack).pc = s.pc + 1 := rfl

@[simp] theorem complete_steps (s : State) (op : Opcode) (stack : List Value) :
    (s.complete op stack).steps = s.steps + 1 := rfl

@[simp] theorem complete_stack (s : State) (op : Opcode) (stack : List Value) :
    (s.complete op stack).stack = stack := rfl

@[simp] theorem complete_maxDepth (s : State) (op : Opcode) (stack : List Value) :
    (s.complete op stack).maxDepth = max s.maxDepth stack.length := rfl

theorem complete_haltIndex (s : State) (op : Opcode) (stack : List Value) :
    (s.complete op stack).haltIndex = if op = .halt then some s.pc else s.haltIndex := rfl

private theorem operand_accepted {i : Instruction} (hi : i.WellFormed) :
    ¬(i.opcode.operandKind = .none ∧ i.operand ≠ .null) := by
  rintro ⟨hk, hne⟩
  rcases hi.cases with ⟨operand, n, -, -, rfl⟩ | ⟨t, rfl⟩ | ⟨-, he⟩
  · cases hk
  · cases hk
  · exact hne he

theorem step_of_exec_ok {s : State} {i : Instruction} {stack : List Value} (hi : i.WellFormed)
    (h : i.exec s.stack = .ok stack) : s.step (.instruction i) = .moved (s.complete i.opcode stack) := by
  simp only [step, operand_accepted hi, ↓reduceIte, h]

theorem step_of_exec_error {s : State} {i : Instruction} {failure : Failure} (hi : i.WellFormed)
    (h : i.exec s.stack = .error failure) :
    s.step (.instruction i) =
      .faulted ⟨failure.cause, s.pc, some i.opcode⟩ { s.advance with stack := failure.stack } := by
  simp only [step, operand_accepted hi, ↓reduceIte, h]

/-- All that an item can make of a state: a well-formed instruction is completed or fails, and any other item is
rejected and leaves the stack alone. -/
theorem step_cases (s : State) (item : Item) :
    (∃ i stack, item = .instruction i ∧ i.WellFormed ∧ i.exec s.stack = .ok stack ∧
      s.step item = .moved (s.complete i.opcode stack)) ∨
    (∃ i failure, item = .instruction i ∧ i.WellFormed ∧ i.exec s.stack = .error failure ∧
      s.step item =
        .faulted ⟨failure.cause, s.pc, some i.opcode⟩ { s.advance with stack := failure.stack }) ∨
    ∃ cause op t, ¬item.WellFormed ∧ s.step item = .faulted ⟨cause, s.pc, op⟩ t ∧ t.stack = s.stack ∧
      t.maxDepth = s.maxDepth := by
  rcases wellFormed_or_rejected item with hi | ⟨violation, op, hr⟩
  · cases item with
    | unknown | stray => exact hi.elim
    | instruction i =>
      cases he : i.exec s.stack with
      | ok stack => exact .inl ⟨i, stack, rfl, hi, he, step_of_exec_ok hi he⟩
      | error failure => exact .inr (.inl ⟨i, failure, rfl, hi, he, step_of_exec_error hi he⟩)
  · obtain ⟨cause, t, hstep, -, hstack, hdepth⟩ := hr.step s
    exact .inr (.inr ⟨cause, op, t, hr.not_wellFormed, hstep, hstack, hdepth⟩)

/-- A step that is completed executes a well-formed instruction. -/
theorem step_moved {s t : State} {item : Item} (h : s.step item = .moved t) :
    ∃ i stack, item = .instruction i ∧ i.WellFormed ∧ i.exec s.stack = .ok stack ∧ t = s.complete i.opcode stack := by
  rcases s.step_cases item with ⟨i, stack, hitem, hi, he, hstep⟩ | ⟨_, _, -, -, -, hstep⟩ | ⟨_, _, _, -, hstep, -⟩
  · rw [hstep] at h
    injection h with h
    exact ⟨i, stack, hitem, hi, he, h.symm⟩
  · rw [hstep] at h
    cases h
  · rw [hstep] at h
    cases h

theorem step_moved_wellFormed {s t : State} {item : Item} (h : s.step item = .moved t) : item.WellFormed := by
  obtain ⟨i, -, rfl, hi, -⟩ := step_moved h
  exact hi

theorem step_moved_pc {s t : State} {item : Item} (h : s.step item = .moved t) : t.pc = s.pc + 1 := by
  obtain ⟨i, stack, -, -, -, rfl⟩ := step_moved h
  rfl

theorem step_moved_steps {s t : State} {item : Item} (h : s.step item = .moved t) : t.steps = s.steps + 1 := by
  obtain ⟨i, stack, -, -, -, rfl⟩ := step_moved h
  rfl

/-- A step that ends the run blames its own item, and is not counted in the depth. -/
theorem step_faulted {s t : State} {item : Item} {f : Fault} (h : s.step item = .faulted f t) :
    f.index = s.pc ∧ t.maxDepth = s.maxDepth := by
  rcases s.step_cases item with ⟨_, _, -, -, -, hstep⟩ | ⟨_, _, -, -, -, hstep⟩ | ⟨_, _, _, -, hstep, -, hdepth⟩
  · rw [hstep] at h
    cases h
  · rw [hstep] at h
    injection h with hf ht
    subst hf ht
    exact ⟨rfl, rfl⟩
  · rw [hstep] at h
    injection h with hf ht
    subst hf ht
    exact ⟨rfl, hdepth⟩

theorem step_moved_haltIndex {s t : State} {item : Item} (hs : s.haltIndex = none) (h : s.step item = .moved t) :
    (item ≠ .instruction .halt ∧ t.haltIndex = none) ∨ (item = .instruction .halt ∧ t.haltIndex = some s.pc) := by
  obtain ⟨i, stack, rfl, hi, -, rfl⟩ := step_moved h
  by_cases hop : i.opcode = .halt
  · exact .inr ⟨congrArg Item.instruction (hi.eq_halt hop), by simp [complete_haltIndex, hop]⟩
  · refine .inl ⟨fun he => hop ?_, by simp [complete_haltIndex, hop, hs]⟩
    injection he with he
    exact congrArg Instruction.opcode he

/-! ### Walks -/

theorem walk_cons_faulted {s t : State} {item : Item} {f : Fault} (h : s.step item = .faulted f t)
    (rest : List Item) : s.walk (item :: rest) = ([], .faulted f t) := by
  simp only [walk, h]

theorem walk_cons_halted {s t : State} {item : Item} (h : s.step item = .moved t) (ht : t.haltIndex.isSome = true)
    (rest : List Item) : s.walk (item :: rest) = ([⟨s.pc, item, t.stack⟩], .stopped t) := by
  simp only [walk, h, ht, ↓reduceIte]

theorem walk_cons_moved {s t : State} {item : Item} (h : s.step item = .moved t) (ht : t.haltIndex = none)
    (rest : List Item) :
    s.walk (item :: rest) = (⟨s.pc, item, t.stack⟩ :: (t.walk rest).1, (t.walk rest).2) := by
  simp [walk, h, ht]

/-- After a walk that executes all its items and meets no `HALT`, the walk goes on. -/
theorem walk_append_of_open {s t : State} {a : List Item} (h : (s.walk a).2 = .stopped t) (ht : t.haltIndex = none)
    (b : List Item) : s.walk (a ++ b) = ((s.walk a).1 ++ (t.walk b).1, (t.walk b).2) := by
  induction a generalizing s with
  | nil => injection h with h; subst h; rfl
  | cons item rest ih =>
    cases hstep : s.step item with
    | faulted f u => rw [walk_cons_faulted hstep] at h; cases h
    | moved u =>
      cases hu : u.haltIndex with
      | some n =>
        rw [walk_cons_halted hstep (by simp [hu])] at h
        injection h with h
        subst h
        rw [hu] at ht
        cases ht
      | none =>
        rw [walk_cons_moved hstep hu] at h
        rw [List.cons_append, walk_cons_moved hstep hu, walk_cons_moved hstep hu, ih h]
        rfl

/-- After a walk that ends at `HALT` or with a fault, nothing more is looked at. -/
theorem walk_append_of_closed {s : State} {a : List Item} (hs : s.haltIndex = none)
    (h : ∀ t, (s.walk a).2 = .stopped t → t.haltIndex ≠ none) (b : List Item) : s.walk (a ++ b) = s.walk a := by
  induction a generalizing s with
  | nil => exact absurd hs (h s rfl)
  | cons item rest ih =>
    rw [List.cons_append]
    cases hstep : s.step item with
    | faulted f u => rw [walk_cons_faulted hstep, walk_cons_faulted hstep]
    | moved u =>
      cases hu : u.haltIndex with
      | some n => rw [walk_cons_halted hstep (by simp [hu]), walk_cons_halted hstep (by simp [hu])]
      | none =>
        rw [walk_cons_moved hstep hu] at h
        rw [walk_cons_moved hstep hu, walk_cons_moved hstep hu, ih hu h]

/-- The part of its items that a walk has executed when it stops. -/
theorem walk_stopped {s t : State} {items : List Item} (hs : s.haltIndex = none)
    (h : (s.walk items).2 = .stopped t) :
    ∃ done rest, items = done ++ rest ∧ s.walk done = s.walk items ∧ t.pc = s.pc + done.length ∧
      (∀ item ∈ done, item.WellFormed) ∧
      ((t.haltIndex = none ∧ rest = [] ∧ .instruction .halt ∉ done) ∨
        ∃ before, done = before ++ [.instruction .halt] ∧ .instruction .halt ∉ before ∧
          t.haltIndex = some (s.pc + before.length)) := by
  -- the state changes from item to item, so the induction is for every state that has met no `HALT`
  induction items generalizing s with
  | nil =>
    injection h with h
    subst h
    exact ⟨[], [], rfl, rfl, rfl, by simp, .inl ⟨hs, rfl, by simp⟩⟩
  | cons item rest ih =>
    cases hstep : s.step item with
    | faulted f u => rw [walk_cons_faulted hstep] at h; cases h
    | moved u =>
      have hitem := step_moved_wellFormed hstep
      have hpc := step_moved_pc hstep
      rcases step_moved_haltIndex hs hstep with ⟨hne, hu⟩ | ⟨rfl, hu⟩
      · rw [walk_cons_moved hstep hu] at h
        obtain ⟨done, left, rfl, hwalk, ht, hwf, hend⟩ := ih hu h
        refine ⟨item :: done, left, rfl, ?_, ?_, ?_, ?_⟩
        · rw [walk_cons_moved hstep hu, walk_cons_moved hstep hu, hwalk]
        · rw [ht, hpc, List.length_cons]; omega
        · exact List.forall_mem_cons.mpr ⟨hitem, hwf⟩
        · rcases hend with ⟨hn, hleft, hnot⟩ | ⟨before, hdone, hnot, hsome⟩
          · exact .inl ⟨hn, hleft, by simp [hnot, Ne.symm hne]⟩
          · refine .inr ⟨item :: before, by rw [hdone]; rfl, by simp [hnot, Ne.symm hne], ?_⟩
            rw [hsome, hpc, List.length_cons]
            congr 1
            omega
      · -- the item is the first `HALT`, and the rest is left alone
        have hsome : u.haltIndex.isSome = true := by rw [hu]; rfl
        rw [walk_cons_halted hstep hsome] at h
        injection h with h
        subst h
        refine ⟨[.instruction .halt], rest, rfl, ?_, hpc, by simpa using hitem, .inr ⟨[], rfl, by simp, hu⟩⟩
        rw [walk_cons_halted hstep hsome, walk_cons_halted hstep hsome]

/-- A walk that faults has executed everything before the faulty item. -/
theorem walk_faulted {s t : State} {items : List Item} {f : Fault} (hs : s.haltIndex = none)
    (h : (s.walk items).2 = .faulted f t) :
    ∃ done item rest u, items = done ++ item :: rest ∧ (s.walk done).2 = .stopped u ∧ u.haltIndex = none ∧
      u.pc = s.pc + done.length ∧ u.step item = .faulted f t := by
  induction items generalizing s with
  | nil => cases h
  | cons item rest ih =>
    cases hstep : s.step item with
    | faulted g u =>
      rw [walk_cons_faulted hstep] at h
      injection h with hf ht
      subst hf ht
      exact ⟨[], item, rest, s, rfl, rfl, hs, rfl, hstep⟩
    | moved u =>
      cases hu : u.haltIndex with
      | some n => rw [walk_cons_halted hstep (by simp [hu])] at h; cases h
      | none =>
        rw [walk_cons_moved hstep hu] at h
        obtain ⟨done, item', left, v, rfl, hwalk, hv, hpc, hfault⟩ := ih hu h
        refine ⟨item :: done, item', left, v, rfl, ?_, hv, ?_, hfault⟩
        · rw [walk_cons_moved hstep hu]; exact hwalk
        · rw [hpc, step_moved_pc hstep, List.length_cons]
          omega

/-! ### Invariants -/

/-- What every completed step keeps holds after every event, when the walk stops, and before the step that faults. -/
theorem walk_invariant {P : State → Prop} (hP : ∀ s item t, P s → s.step item = .moved t → P t) {s : State}
    (hs : P s) (items : List Item) :
    (∀ e ∈ (s.walk items).1, ∃ t, P t ∧ t.pc = e.index + 1 ∧ t.stack = e.stack) ∧
      (∀ t, (s.walk items).2 = .stopped t → P t) ∧
      (∀ f t, (s.walk items).2 = .faulted f t → ∃ u item, item ∈ items ∧ P u ∧ u.step item = .faulted f t) := by
  induction items generalizing s with
  | nil => simp [walk, hs]
  | cons item rest ih =>
    cases hstep : s.step item with
    | faulted f u =>
      rw [walk_cons_faulted hstep]
      refine ⟨by simp, by simp, fun g t h => ?_⟩
      injection h with hf ht
      subst hf ht
      exact ⟨s, item, by simp, hs, hstep⟩
    | moved u =>
      have hu := hP s item u hs hstep
      have hevent : ∃ t, P t ∧ t.pc = s.pc + 1 ∧ t.stack = u.stack := ⟨u, hu, step_moved_pc hstep, rfl⟩
      cases hh : u.haltIndex with
      | some n =>
        rw [walk_cons_halted hstep (by simp [hh])]
        refine ⟨by simpa using hevent, fun t h => ?_, by simp⟩
        injection h with h
        exact h ▸ hu
      | none =>
        rw [walk_cons_moved hstep hh]
        obtain ⟨hevents, hstopped, hfaulted⟩ := ih hu
        refine ⟨List.forall_mem_cons.mpr ⟨hevent, hevents⟩, hstopped, fun f t h => ?_⟩
        obtain ⟨v, item', hmem, hv, hfault⟩ := hfaulted f t h
        exact ⟨v, item', List.mem_cons_of_mem _ hmem, hv, hfault⟩

/-- The events of a walk lie in the range of its items. -/
theorem index_lt_of_mem_walk {s : State} {items : List Item} {e : Event} (h : e ∈ (s.walk items).1) :
    e.index < s.pc + items.length := by
  induction items generalizing s with
  | nil => cases h
  | cons item rest ih =>
    rw [List.length_cons]
    cases hstep : s.step item with
    | faulted f u => rw [walk_cons_faulted hstep] at h; cases h
    | moved u =>
      have hpc := step_moved_pc hstep
      cases hh : u.haltIndex with
      | some n =>
        rw [walk_cons_halted hstep (by simp [hh])] at h
        obtain rfl := List.mem_singleton.mp h
        show s.pc < _
        omega
      | none =>
        rw [walk_cons_moved hstep hh] at h
        rcases List.mem_cons.mp h with rfl | h
        · show s.pc < _
          omega
        · have := ih h
          omega

theorem step_moved_wordStack {s t : State} {item : Item} (hs : WordStack s.stack) (h : s.step item = .moved t) :
    WordStack t.stack := by
  obtain ⟨i, stack, -, hi, he, rfl⟩ := step_moved h
  have := exec_sound hi hs
  rw [he] at this
  exact this

/-- A fault of a well-formed instruction on words can be reported. -/
theorem step_faulted_isWritable {s t : State} {item : Item} {f : Fault} (hi : item.WellFormed)
    (hs : WordStack s.stack) (h : s.step item = .faulted f t) : f.cause.isWritable = true := by
  rcases s.step_cases item with ⟨_, _, -, -, -, hstep⟩ | ⟨i, failure, -, hi', he, hstep⟩ | ⟨_, _, _, hn, -⟩
  · rw [hstep] at h
    cases h
  · have hsound := exec_sound hi' hs
    rw [he] at hsound
    rw [hstep] at h
    injection h with hf
    exact hf ▸ hsound.2
  · exact absurd hi hn

theorem wordStack_start : WordStack start.stack := wordStack_nil

/-- From a stack of words on, every stack is one, and the fault of a well-formed item can be reported. -/
theorem walk_wordStack {s : State} (hs : WordStack s.stack) (items : List Item) :
    (∀ e ∈ (s.walk items).1, WordStack e.stack) ∧ (∀ t, (s.walk items).2 = .stopped t → WordStack t.stack) ∧
      ∀ f t, (∀ item ∈ items, item.WellFormed) → (s.walk items).2 = .faulted f t → f.cause.isWritable = true := by
  obtain ⟨hevents, hstopped, hfaulted⟩ := walk_invariant (P := fun s => WordStack s.stack)
    (fun _ _ _ => step_moved_wordStack) hs items
  refine ⟨fun e he => ?_, hstopped, fun f t hwf h => ?_⟩
  · obtain ⟨t, ht, -, hstack⟩ := hevents e he
    exact hstack ▸ ht
  · obtain ⟨u, item, hmem, hu, hstep⟩ := hfaulted f t h
    exact step_faulted_isWritable (hwf item hmem) hu hstep

/-- Every step is counted. -/
theorem walk_steps {s t : State} {items : List Item} (hs : s.steps = s.pc) (h : (s.walk items).2 = .stopped t) :
    t.steps = t.pc := by
  refine (walk_invariant (P := fun s => s.steps = s.pc) (fun s item t hs hstep => ?_) hs items).2.1 t h
  rw [step_moved_steps hstep, step_moved_pc hstep, hs]

end State

end StackMachine
