import StackMachine.Proofs.Checking
import StackMachine.Proofs.Execution

/-!
# The checker and the machine agree

The third pass of the checker follows only the depth of the stack, and the machine follows the stack itself. On
well-formed instructions the one foretells the other (`followDepth_foretells`): unless a value on the stack is to blame
first, the walk ends where and as the pass ends, with the depth that the pass has computed. So an accepted program can
fail because of its values only (`outcome_of_accepted`), and the part of a program that a successful run has executed
is accepted (`accepted_of_halted`).
-/

namespace StackMachine

open Validation

/-- What the result of the third pass says about the end of a walk, `size` being the position of the end of the
program. -/
inductive Foretells (size : Nat) : Except Rejection Summary → Ending → Prop
  /-- A value is to blame, and no violation stands before it. -/
  | valueFault {result : Except Rejection Summary} {f : Fault} {t : State}
    (kind : f.cause.kind ∈ Report.Kind.valueFaults) (opcode : f.opcode ≠ some .pushInt)
    (before : ∀ r i, result = .error r → r.index = some i → f.index < i)
    (depth : ∀ r, result = .ok r → t.maxDepth ≤ r.maxDepth) :
    Foretells size result (.faulted f t)
  | accepted {t : State} (depth : t.stack.length = 1) (pc : t.pc = size) :
    Foretells size (.ok ⟨t.haltIndex, t.maxDepth⟩) (.stopped t)
  | underflow (op : Opcode) (depth needed i : Nat) (t : State) :
    Foretells size (.error ⟨.underflow depth needed, some i, some op⟩)
      (.faulted ⟨.underflow op needed depth, i, some op⟩ t)
  | depthAtHalt {t : State} {i : Nat} (depth : t.stack.length ≠ 1) (halt : t.haltIndex = some i) :
    Foretells size (.error ⟨.depthAtHalt t.stack.length, some i, some .halt⟩) (.stopped t)
  | depthAtEnd {t : State} {i : Nat} (depth : t.stack.length ≠ 1) (halt : t.haltIndex = none) (pc : t.pc = i) :
    Foretells size (.error ⟨.depthAtEnd t.stack.length, some i, none⟩) (.stopped t)
  | unreachable {t : State} {i : Nat} (count : Nat) (op : Option Opcode) (depth : t.stack.length = 1)
    (halt : t.haltIndex = some i) (pc : t.pc = i + 1) (more : i + 1 < size) :
    Foretells size (.error ⟨.unreachable count, some (i + 1), op⟩) (.stopped t)

private theorem foretells_halt {s : State} (hd : s.stack.length ≤ s.maxDepth) {i : Instruction} (hi : i.WellFormed)
    (hop : i.opcode = .halt) (rest : List Instruction) :
    Foretells (s.pc + (i :: rest).length) (followDepth s.pc s.stack.length s.maxDepth (i :: rest))
      (s.walk ((i :: rest).map .instruction)).2 := by
  have hexec : i.exec s.stack = .ok s.stack := by simp [Instruction.exec, hop]
  have hstep := State.step_of_exec_ok hi hexec
  rw [hop] at hstep
  have hmax : max s.maxDepth s.stack.length = s.maxDepth := Nat.max_eq_left hd
  rw [List.map_cons, State.walk_cons_halted hstep rfl]
  unfold followDepth
  by_cases h1 : s.stack.length = 1
  · simp only [hop, h1, ↓reduceIte]
    cases rest with
    | nil =>
      have := Foretells.accepted (t := s.complete .halt s.stack) h1 (rfl : _ = s.pc + [i].length)
      rwa [State.complete_haltIndex, State.complete_maxDepth, hmax] at this
    | cons next rest => exact .unreachable _ _ h1 rfl rfl (by simp only [List.length_cons]; omega)
  · simp only [hop, h1, ↓reduceIte]
    exact .depthAtHalt (t := s.complete .halt s.stack) h1 rfl

/-- The third pass foretells the end of the walk. -/
theorem followDepth_foretells {instructions : List Instruction} (hwf : ∀ i ∈ instructions, i.WellFormed) {s : State}
    (hs : s.haltIndex = none) (hd : s.stack.length ≤ s.maxDepth) :
    Foretells (s.pc + instructions.length) (followDepth s.pc s.stack.length s.maxDepth instructions)
      (s.walk (instructions.map .instruction)).2 := by
  -- the machine counts the depth at `HALT` and the pass does not; `hd` is why that makes no difference
  induction instructions generalizing s with
  | nil =>
    show Foretells s.pc (followDepth s.pc s.stack.length s.maxDepth []) (.stopped s)
    unfold followDepth
    by_cases h1 : s.stack.length = 1
    · have := Foretells.accepted h1 (rfl : s.pc = s.pc)
      rw [hs] at this
      rwa [if_pos h1]
    · rw [if_neg h1]
      exact .depthAtEnd h1 hs rfl
  | cons i rest ih =>
    obtain ⟨hi, hrest⟩ := List.forall_mem_cons.mp hwf
    by_cases hop : i.opcode = .halt
    · exact foretells_halt hd hi hop rest
    rw [List.map_cons]
    rcases exec_cases hi s.stack with ⟨hlt, he⟩ | ⟨hle, given, hgiven, he⟩ | ⟨hle, cause, hkind, he⟩
    · -- too few values: both stop here
      rw [State.walk_cons_faulted (State.step_of_exec_error hi he), followDepth_cons_underflow hop hlt]
      exact .underflow _ _ _ _ _
    · -- the instruction is completed: both go on
      have ht : (s.complete i.opcode (given ++ s.stack.drop i.opcode.pops)).haltIndex = none := by
        simp [State.complete_haltIndex, hop, hs]
      have hlen : (given ++ s.stack.drop i.opcode.pops).length = s.stack.length - i.opcode.pops + i.opcode.pushes := by
        rw [List.length_append, List.length_drop, hgiven]
        omega
      rw [State.walk_cons_moved (State.step_of_exec_ok hi he) ht]
      have := ih hrest ht (by simp only [State.complete_stack, State.complete_maxDepth]; omega)
      rw [State.complete_pc, State.complete_stack, State.complete_maxDepth, hlen] at this
      rw [followDepth_cons hop hle, List.length_cons, Nat.add_comm rest.length, ← Nat.add_assoc]
      exact this
    · -- a value is to blame: the pass goes on, and whatever it finds stands behind
      rw [State.walk_cons_faulted (State.step_of_exec_error hi he), followDepth_cons hop hle]
      refine .valueFault hkind ?_ ?_ ?_
      · intro hpush
        obtain ⟨n, hn⟩ := exec_pushInt hi (Option.some.inj hpush) s.stack
        rw [hn] at he
        cases he
      · intro r j hr hj
        obtain ⟨k, hk, hlt⟩ := le_index_of_followDepth hr
        rw [hj] at hk
        obtain rfl := Option.some.inj hk
        exact hlt
      · intro r hr
        exact Nat.le_trans (Nat.le_max_left ..) (le_maxDepth_of_followDepth hr)

/-! ### Outcomes -/

/-- The outcome is a fault of the given kind at the given place. -/
def Outcome.FaultsWith (kind : Report.Kind) (index : Nat) (opcode : Option Opcode) : Outcome → Prop
  | .faulted f _ => f.report.kind = kind ∧ f.index = index ∧ f.opcode = opcode
  | _ => False

theorem Outcome.faultsWith_iff {kind : Report.Kind} {index : Nat} {opcode : Option Opcode} {o : Outcome} :
    o.FaultsWith kind index opcode ↔
      ∃ f s, o = .faulted f s ∧ f.report.kind = kind ∧ f.index = index ∧ f.opcode = opcode := by
  cases o with
  | faulted f s =>
    constructor
    · intro h
      exact ⟨f, s, rfl, h⟩
    · rintro ⟨g, t, hg, h⟩
      injection hg with hf
      exact hf ▸ h
  | halted | unwritable => simp [FaultsWith]

theorem Outcome.FaultsWith.unique {o : Outcome} {kind kind' : Report.Kind} {i j : Nat} {op op' : Option Opcode}
    (h : o.FaultsWith kind i op) (h' : o.FaultsWith kind' j op') : kind = kind' ∧ i = j ∧ op = op' := by
  cases o with
  | faulted f s => exact ⟨h.1.symm.trans h'.1, h.2.1.symm.trans h'.2.1, h.2.2.symm.trans h'.2.2⟩
  | halted | unwritable => exact h.elim

theorem Outcome.FaultsWith.ne_halted {o : Outcome} {kind : Report.Kind} {i : Nat} {op : Option Opcode}
    (h : o.FaultsWith kind i op) (v : Int) (s : State) : o ≠ .halted v s := by
  rintro rfl
  exact h

theorem Outcome.ofFault_of_isWritable {f : Fault} (h : f.cause.isWritable = true) (s : State) :
    Outcome.ofFault f s = .faulted f s :=
  if_pos h

theorem Outcome.ofFault_ne_halted (f : Fault) (s t : State) (v : Int) : Outcome.ofFault f s ≠ .halted v t := by
  unfold Outcome.ofFault
  split <;> simp

theorem outcome_of_text {s : State} {text : String} (h : s.stack = [.text text]) (name : String) :
    s.outcome name = .faulted ⟨.finalText text, s.haltIndex.getD s.pc, s.haltIndex.map fun _ => .halt⟩ s := by
  simp only [State.outcome, h]
  exact Outcome.ofFault_of_isWritable rfl s

private theorem ofFault_of_length_ne {s : State} (h : s.stack.length ≠ 1) (name : String) :
    s.outcome name = .ofFault ⟨.finalDepth name s.stack, s.haltIndex.getD s.pc, s.haltIndex.map fun _ => .halt⟩ s := by
  obtain ⟨pc, steps, stack, maxDepth, haltIndex⟩ := s
  rcases stack with _ | ⟨v, _ | ⟨w, rest⟩⟩
  · rfl
  · exact absurd rfl h
  · cases v <;> rfl

theorem outcome_of_length_ne {s : State} (hs : WordStack s.stack) (h : s.stack.length ≠ 1) (name : String) :
    s.outcome name =
      .faulted ⟨.finalDepth name s.stack, s.haltIndex.getD s.pc, s.haltIndex.map fun _ => .halt⟩ s := by
  have hw : (Cause.finalDepth name s.stack).isWritable = true :=
    List.all_eq_true.mpr fun v hv => (hs v hv).isWritable
  rw [ofFault_of_length_ne h]
  exact Outcome.ofFault_of_isWritable hw s

/-- A run that stops with one value succeeds, or faults because that value is a text. -/
theorem outcome_of_length_eq_one {s : State} (h : s.stack.length = 1) (name : String) :
    (∃ v, s.outcome name = .halted v s) ∨
      ∃ f, s.outcome name = .faulted f s ∧ f.cause.kind = .typeMismatch ∧ f.opcode ≠ some .pushInt := by
  obtain ⟨v, hv⟩ := List.length_eq_one_iff.mp h
  cases v with
  | int n => exact .inl ⟨n, by simp [State.outcome, hv]⟩
  | text text =>
    refine .inr ⟨_, outcome_of_text hv name, rfl, ?_⟩
    cases s.haltIndex <;> simp

/-- A fault of well-formed items can be reported. -/
theorem outcome_of_faulted {p : Program} (hwf : ∀ item ∈ p.items, item.WellFormed) {f : Fault} {t : State}
    (h : (State.start.walk p.items).2 = .faulted f t) : p.outcome = .faulted f t := by
  have hw := (State.walk_wordStack State.wordStack_start p.items).2.2 f t hwf h
  simp only [Program.outcome, Program.run, h, Ending.outcome]
  exact Outcome.ofFault_of_isWritable hw t

theorem outcome_of_stopped {p : Program} {t : State} (h : (State.start.walk p.items).2 = .stopped t) :
    p.outcome = t.outcome p.name := by
  simp [Program.outcome, Program.run, h, Ending.outcome]

/-- A successful run has stopped with one integer. -/
theorem stopped_of_halted {p : Program} {v : Int} {s : State} (h : p.outcome = .halted v s) :
    (State.start.walk p.items).2 = .stopped s ∧ s.stack = [.int v] := by
  cases hw : (State.start.walk p.items).2 with
  | faulted f t =>
    simp only [Program.outcome, Program.run, hw, Ending.outcome] at h
    exact absurd h (Outcome.ofFault_ne_halted _ _ _ _)
  | stopped t =>
    rw [outcome_of_stopped hw] at h
    unfold State.outcome at h
    split at h
    next n hn =>
      injection h with hv ht
      subst hv ht
      exact ⟨rfl, hn⟩
    all_goals exact absurd h (Outcome.ofFault_ne_halted _ _ _ _)

/-! ### Runs that stop -/

/-- The first `n` items of a program, under its name. -/
def Program.upTo (p : Program) (n : Nat) : Program := { p with items := p.items.take n }

/-- What a run that stops has done: it has executed the items before its position, and they alone matter. -/
theorem run_stopped {items : List Item} {t : State} (h : (State.start.walk items).2 = .stopped t) :
    t.steps = t.pc ∧ t.pc ≤ items.length ∧ (∀ item ∈ items.take t.pc, item.WellFormed) ∧
      State.start.walk (items.take t.pc) = State.start.walk items ∧
      (t.haltIndex = none → t.pc = items.length) ∧
      t.haltIndex = (if items[t.pc - 1]? = some (.instruction .halt) then some (t.pc - 1) else none) := by
  obtain ⟨done, rest, rfl, hwalk, hpc, hwf, hend⟩ := State.walk_stopped rfl h
  have hlen : t.pc = done.length := by rw [hpc]; exact Nat.zero_add _
  have htake : (done ++ rest).take t.pc = done := by rw [hlen, List.take_left]
  refine ⟨State.walk_steps rfl h, by rw [hlen, List.length_append]; omega, by rwa [htake], by rwa [htake], ?_, ?_⟩
  · rintro hn
    rcases hend with ⟨-, rfl, -⟩ | ⟨before, -, -, hsome⟩
    · rw [hlen, List.append_nil]
    · rw [hsome] at hn
      cases hn
  · rcases hend with ⟨hn, rfl, hnot⟩ | ⟨before, rfl, -, hsome⟩
    · rw [hn, if_neg]
      intro hget
      rw [List.append_nil] at hget
      exact hnot (List.mem_of_getElem? hget)
    · have hstart : State.start.pc + before.length = t.pc - 1 := by
        rw [hlen, List.length_append]
        simp [State.start]
      have hbefore : t.pc - 1 = before.length := by simp [hlen]
      rw [hsome, hstart, hbefore, List.append_assoc, List.getElem?_append_right (Nat.le_refl _)]
      simp

/-- Of a program of well-formed instructions, the checker foretells the run. -/
theorem check_foretells {p : Program} (hne : p.items ≠ []) (hwf : ∀ item ∈ p.items, item.WellFormed) :
    Foretells p.size p.check (State.start.walk p.items).2 := by
  obtain ⟨instructions, hp⟩ := exists_map_instruction hwf
  rw [hp, wellFormed_map] at hwf
  have hsize : State.start.pc + instructions.length = p.size := by
    simp [State.start, Program.size, hp]
  have hne' : instructions ≠ [] := fun he => hne (by rw [hp, he]; rfl)
  rw [check_of_wellFormed hp hne' hwf, ← hsize, hp]
  exact followDepth_foretells hwf rfl (Nat.le_refl _)

/-- Only programs of well-formed instructions are accepted. -/
theorem wellFormed_of_accepted {p : Program} {r : Summary} (h : p.validate = .accepted r) :
    p.items ≠ [] ∧ ∀ item ∈ p.items, item.WellFormed := by
  rw [validate_eq_accepted_iff] at h
  rcases check_cases p with ⟨-, hc⟩ | ⟨before, item, rest, violation, op, -, -, hc⟩ | ⟨is, hne, hitems, hwf, -⟩
  · rw [hc] at h
    cases h
  · rw [hc] at h
    cases h
  · rw [hitems]
    exact ⟨fun he => hne (List.map_eq_nil_iff.mp he), wellFormed_map.mpr hwf⟩

/-- A run that stops with one value is accepted, unless it leaves something behind. -/
theorem check_of_stopped {p : Program} {t : State} (hne : p.items ≠ []) (hwf : ∀ item ∈ p.items, item.WellFormed)
    (h : (State.start.walk p.items).2 = .stopped t) (hdepth : t.stack.length = 1) :
    (t.pc = p.size ∧ p.check = .ok ⟨t.haltIndex, t.maxDepth⟩) ∨
      (t.pc < p.size ∧ ∃ count op, p.check = .error ⟨.unreachable count, some t.pc, op⟩) := by
  have hf := check_foretells hne hwf
  rw [h] at hf
  generalize p.check = result at hf ⊢
  cases hf with
  | accepted _ hpc => exact .inl ⟨hpc, rfl⟩
  | depthAtHalt hd | depthAtEnd hd => exact absurd hdepth hd
  | unreachable count op _ _ hpc hmore => exact .inr ⟨by rwa [hpc], count, op, by rw [hpc]⟩

/-! ### Accepted programs -/

/-- The outcome is one that the checker has foreseen: the run of `p` succeeds with the depth and the `HALT` of the
summary, or a value is to blame, and then the depth stays within the summary's. -/
def Validation.Summary.Covers (r : Summary) (p : Program) : Outcome → Prop
  | .halted _ s => s.steps = p.size ∧ s.maxDepth = r.maxDepth ∧ s.haltIndex = r.haltIndex ∧
      r.haltIndex = if p.items[p.size - 1]? = some (.instruction .halt) then some (p.size - 1) else none
  | .faulted f s => f.report.kind ∈ Report.Kind.valueFaults ∧
      (f.report.kind = .arithmeticOverflow → f.opcode ≠ some .pushInt) ∧ s.maxDepth ≤ r.maxDepth
  | .unwritable => False

/-- The outcome of an accepted program is one that the checker has foreseen. -/
theorem covers_of_accepted {p : Program} {r : Summary} (h : p.validate = .accepted r) : r.Covers p p.outcome := by
  obtain ⟨hne, hwf⟩ := wellFormed_of_accepted h
  rw [validate_eq_accepted_iff] at h
  have hf := check_foretells hne hwf
  rw [h] at hf
  cases hw : (State.start.walk p.items).2 with
  | stopped t =>
    rw [hw] at hf
    rw [outcome_of_stopped hw]
    cases hf with
    | accepted hdepth hpc =>
      obtain ⟨hsteps, -, -, -, -, hhalt⟩ := run_stopped hw
      rcases outcome_of_length_eq_one hdepth p.name with ⟨v, ho⟩ | ⟨f, ho, hk, hop⟩ <;> rw [ho]
      · refine ⟨hsteps.trans hpc, rfl, rfl, ?_⟩
        rw [hpc] at hhalt
        exact hhalt
      · have hkind : f.report.kind = .typeMismatch := hk
        exact ⟨by simp [hkind, Report.Kind.valueFaults], fun _ => hop, Nat.le_refl _⟩
  | faulted f t =>
    rw [hw] at hf
    rw [outcome_of_faulted hwf hw]
    cases hf with
    | valueFault hkind hop _ hdepth => exact ⟨hkind, fun _ => hop, hdepth r rfl⟩

/-- A program that the checker accepts can fail because of its values only, and never because of a literal. If it
succeeds, then the checker has foretold the depth and the `HALT`; if it fails, the depth stays within the checker's. All
that comes to lie on the stack can be written out. -/
theorem outcome_of_accepted (p : Program) (r : Summary) (h : p.validate = .accepted r) :
    r.Covers p p.outcome ∧ ∀ e ∈ p.run.events, ∀ v ∈ e.stack, v.isWritable = true := by
  have hwords := (State.walk_wordStack State.wordStack_start p.items).1
  exact ⟨covers_of_accepted h, fun e he v hv => (hwords e he v hv).isWritable⟩

/-- A group of digits is doubled and read. -/
theorem outcome_of_accepted_digits :
    let p : Program := ⟨"digits", [.pushStr (.text "69"), .dup, .concat, .toInt, .halt].map .instruction⟩
    p.validate = .accepted ⟨some 4, 2⟩ ∧ Summary.Covers ⟨some 4, 2⟩ p p.outcome ∧
      ∀ e ∈ p.run.events, ∀ v ∈ e.stack, v.isWritable = true :=
  ⟨by decide, outcome_of_accepted _ _ (by decide)⟩

/-! ### Successful runs -/

/-- What a successful run has executed is accepted, with the depth and the `HALT` of the run. The whole program is
accepted if nothing is left; if the rest is well-formed too, it is rejected as unreachable. -/
theorem accepted_of_halted (p : Program) (v : Int) (s : State) (h : p.outcome = .halted v s) :
    s.haltIndex = (if p.items[s.steps - 1]? = some (.instruction .halt) then some (s.steps - 1) else none) ∧
    (p.upTo s.steps).validate = .accepted ⟨s.haltIndex, s.maxDepth⟩ ∧
    ((∃ r, p.validate = .accepted r) ↔ s.steps = p.size) ∧
    (s.steps < p.size → (∀ item ∈ p.items, item.WellFormed) →
      ∃ r, p.validate = .rejected r ∧ r.violation.kind = .unreachableCode ∧ r.index = some s.steps) := by
  obtain ⟨hstop, hstack⟩ := stopped_of_halted h
  obtain ⟨hsteps, hle, hdone, hwalk, -, hhalt⟩ := run_stopped hstop
  have hdepth : s.stack.length = 1 := by rw [hstack]; rfl
  rw [hsteps]
  have hne : ∀ {items : List Item}, (State.start.walk items).2 = .stopped s → items ≠ [] := by
    rintro items hw rfl
    injection hw with hw
    rw [← hw] at hdepth
    cases hdepth
  -- the executed part, as a program of its own
  have hupTo : (State.start.walk (p.upTo s.pc).items).2 = .stopped s := by
    rw [← hstop, ← hwalk]
    rfl
  have hsize : (p.upTo s.pc).size = s.pc := List.length_take_of_le hle
  have hcheck : (p.upTo s.pc).check = .ok ⟨s.haltIndex, s.maxDepth⟩ := by
    rcases check_of_stopped (hne hupTo) hdone hupTo hdepth with ⟨-, hc⟩ | ⟨hlt, -⟩
    · exact hc
    · omega
  refine ⟨hhalt, validate_eq_accepted_iff.mpr hcheck, ⟨?_, ?_⟩, ?_⟩
  · rintro ⟨r, hr⟩
    obtain ⟨hne', hwf⟩ := wellFormed_of_accepted hr
    rw [validate_eq_accepted_iff] at hr
    rcases check_of_stopped hne' hwf hstop hdepth with ⟨hpc, -⟩ | ⟨-, count, op, hc⟩
    · exact hpc
    · rw [hr] at hc
      cases hc
  · intro hpc
    have hall : p.upTo s.pc = p := by
      rw [hpc]
      exact congrArg (Program.mk p.name) (List.take_length ..)
    rw [hall] at hcheck
    exact ⟨_, validate_eq_accepted_iff.mpr hcheck⟩
  · intro hlt hwf
    rcases check_of_stopped (hne hstop) hwf hstop hdepth with ⟨hpc, -⟩ | ⟨-, count, op, hc⟩
    · omega
    · exact ⟨_, validate_eq_rejected_iff.mpr ⟨hc, rfl⟩, rfl, rfl⟩

/-- The item behind `HALT` is not executed. -/
theorem accepted_of_halted_early :
    let p : Program := ⟨"early", [.pushInt (.int 7), .halt, .pop].map .instruction⟩
    p.outcome = .halted 7 ⟨2, 2, [.int 7], 1, some 1⟩ ∧ (p.upTo 2).validate = .accepted ⟨some 1, 1⟩ ∧
      ((∃ r, p.validate = .accepted r) ↔ 2 = p.size) ∧
      ∃ r, p.validate = .rejected r ∧ r.violation.kind = .unreachableCode ∧ r.index = some 2 := by
  intro p
  have hrun : p.outcome = .halted 7 ⟨2, 2, [.int 7], 1, some 1⟩ := by decide
  obtain ⟨-, hpart, hwhole, hrest⟩ := accepted_of_halted p 7 _ hrun
  exact ⟨hrun, hpart, hwhole, hrest (by decide) (by decide)⟩

end StackMachine
