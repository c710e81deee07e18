import StackMachine.Proofs.Execution

/-!
# The states of a run

A run goes through one state after each instruction (`Program.stateAfter`), until it comes to a `HALT`, to the end of
the program, or to an item that it cannot execute (`ending_cases`). The events of the run are these states, one by one
(`events_getElem?`).
-/

namespace StackMachine

/-- The state that a step leads to, if it is completed. -/
def Progress.moved? : Progress → Option State
  | .moved s => some s
  | .faulted .. => none

/-- The state of a run after its first `k` instructions, if it completes as many. -/
def Program.stateAfter (p : Program) : Nat → Option State
  | 0 => some .start
  | k + 1 =>
    match p.stateAfter k, p.items[k]? with
    | some s, some item => if s.haltIndex.isSome then none else (s.step item).moved?
    | _, _ => none

/-- The run comes to the item at position `k`, in state `s`, and takes it up. -/
structure Program.ComesTo (p : Program) (k : Nat) (s : State) (item : Item) : Prop where
  state : p.stateAfter k = some s
  running : s.haltIndex = none
  item : p.items[k]? = some item

namespace Program

variable {p : Program} {k : Nat} {s t : State} {item : Item} {f : Fault}

theorem stateAfter_succ_eq_some_iff :
    p.stateAfter (k + 1) = some t ↔ ∃ s item, p.ComesTo k s item ∧ s.step item = .moved t := by
  constructor
  · intro h
    unfold stateAfter at h
    split at h
    next s item hs hitem =>
      split at h
      · cases h
      · next hhalt =>
        refine ⟨s, item, ⟨hs, by simpa using hhalt, hitem⟩, ?_⟩
        cases hstep : s.step item with
        | moved u => rw [hstep] at h; exact congrArg Progress.moved (Option.some.inj h)
        | faulted f u => rw [hstep] at h; cases h
    next => cases h
  · rintro ⟨s, item, ⟨hs, hrunning, hitem⟩, hstep⟩
    simp [stateAfter, hs, hitem, hrunning, hstep, Progress.moved?]

/-- What holds at the start and is kept by every step that the run takes holds in every state of the run. -/
theorem stateAfter_induction {P : Nat → State → Prop} (start : P 0 .start)
    (step : ∀ k s item t, p.ComesTo k s item → P k s → s.step item = .moved t → P (k + 1) t)
    (h : p.stateAfter k = some s) : P k s := by
  induction k generalizing s with
  | zero => exact Option.some.inj h ▸ start
  | succ k ih =>
    obtain ⟨u, item, hu, hstep⟩ := stateAfter_succ_eq_some_iff.mp h
    exact step k u item s hu (ih hu.state) hstep

theorem pc_of_stateAfter (h : p.stateAfter k = some s) : s.pc = k := by
  refine stateAfter_induction (P := fun k s => s.pc = k) rfl (fun k s item t _ hs hstep => ?_) h
  rw [State.step_moved_pc hstep, hs]

theorem steps_of_stateAfter (h : p.stateAfter k = some s) : s.steps = k := by
  refine stateAfter_induction (P := fun k s => s.steps = k) rfl (fun k s item t _ hs hstep => ?_) h
  rw [State.step_moved_steps hstep, hs]

theorem ComesTo.lt_size (h : p.ComesTo k s item) : k < p.size :=
  (List.getElem?_eq_some_iff.mp h.item).1

/-- A run comes to a position in one way only. -/
theorem ComesTo.unique {other : Item} (hs : p.ComesTo k s item) (ht : p.ComesTo k t other) : s = t ∧ item = other :=
  ⟨Option.some.inj (hs.state.symm.trans ht.state), Option.some.inj (hs.item.symm.trans ht.item)⟩

theorem le_size_of_stateAfter (h : p.stateAfter k = some s) : k ≤ p.size :=
  stateAfter_induction (P := fun k _ => k ≤ p.size) (Nat.zero_le _) (fun _ _ _ _ hc _ _ => hc.lt_size) h

theorem exists_stateAfter_of_le {m : Nat} (hm : m ≤ k) (h : p.stateAfter k = some s) :
    ∃ t, p.stateAfter m = some t := by
  induction hm generalizing s with
  | refl => exact ⟨s, h⟩
  | step _ ih =>
    obtain ⟨u, item, hu, -⟩ := stateAfter_succ_eq_some_iff.mp h
    exact ih hu.state

/-! ### The walk, cut at a state -/

private theorem walk_singleton (h : s.step item = .moved t) : s.walk [item] = ([⟨s.pc, item, t.stack⟩], .stopped t) := by
  cases ht : t.haltIndex with
  | some n => exact State.walk_cons_halted h (by simp [ht]) []
  | none => exact State.walk_cons_moved h ht []

private theorem take_succ_of_comesTo (h : p.ComesTo k s item) : p.items.take (k + 1) = p.items.take k ++ [item] := by
  rw [List.take_add_one, h.item]
  rfl

/-- The first `k` items alone lead to the state after `k` instructions, with one event for each. -/
theorem walk_take (h : p.stateAfter k = some s) :
    (State.start.walk (p.items.take k)).2 = .stopped s ∧ (State.start.walk (p.items.take k)).1.length = k := by
  refine stateAfter_induction (P := fun k s => (State.start.walk (p.items.take k)).2 = .stopped s ∧
    (State.start.walk (p.items.take k)).1.length = k) ⟨rfl, rfl⟩ (fun k s item t hc hs hstep => ?_) h
  obtain ⟨hstop, hlen⟩ := hs
  rw [take_succ_of_comesTo hc, State.walk_append_of_open hstop hc.running, walk_singleton hstep]
  exact ⟨rfl, by rw [List.length_append, hlen]; rfl⟩

theorem walk_take_succ_moved (hc : p.ComesTo k s item) (hstep : s.step item = .moved t) :
    State.start.walk (p.items.take (k + 1)) =
      ((State.start.walk (p.items.take k)).1 ++ [⟨k, item, t.stack⟩], .stopped t) := by
  rw [take_succ_of_comesTo hc, State.walk_append_of_open (walk_take hc.state).1 hc.running, walk_singleton hstep,
    pc_of_stateAfter hc.state]

theorem walk_take_succ_faulted (hc : p.ComesTo k s item) (hstep : s.step item = .faulted f t) :
    State.start.walk (p.items.take (k + 1)) = ((State.start.walk (p.items.take k)).1, .faulted f t) := by
  rw [take_succ_of_comesTo hc, State.walk_append_of_open (walk_take hc.state).1 hc.running,
    State.walk_cons_faulted hstep, List.append_nil]

/-- Behind the `HALT` that a run comes to, nothing matters. -/
theorem walk_append_of_halted (h : p.stateAfter k = some s) (hs : s.haltIndex ≠ none) (rest : List Item) :
    State.start.walk (p.items.take k ++ rest) = State.start.walk (p.items.take k) := by
  refine State.walk_append_of_closed rfl (fun t ht => ?_) rest
  rw [(walk_take h).1] at ht
  injection ht with ht
  exact ht ▸ hs

/-- Behind the item at which a run faults, nothing matters. -/
theorem walk_append_of_faulted (hc : p.ComesTo k s item) (hstep : s.step item = .faulted f t) (rest : List Item) :
    State.start.walk (p.items.take (k + 1) ++ rest) = State.start.walk (p.items.take (k + 1)) := by
  refine State.walk_append_of_closed rfl (fun u hu => ?_) rest
  rw [walk_take_succ_faulted hc hstep] at hu
  cases hu

theorem walk_of_faulted (hc : p.ComesTo k s item) (hstep : s.step item = .faulted f t) :
    State.start.walk p.items = ((State.start.walk (p.items.take k)).1, .faulted f t) := by
  rw [← walk_take_succ_faulted hc hstep, ← walk_append_of_faulted hc hstep (p.items.drop (k + 1)),
    List.take_append_drop]

theorem exists_events_eq_append (h : p.stateAfter k = some s) :
    ∃ others, p.run.events = (State.start.walk (p.items.take k)).1 ++ others := by
  have hsplit : p.run.events = (State.start.walk (p.items.take k ++ p.items.drop k)).1 := by
    rw [List.take_append_drop]
    rfl
  by_cases hs : s.haltIndex = none
  · exact ⟨(s.walk (p.items.drop k)).1, by rw [hsplit, State.walk_append_of_open (walk_take h).1 hs]⟩
  · exact ⟨[], by rw [hsplit, walk_append_of_halted h hs, List.append_nil]⟩

/-! ### How a run ends -/

private theorem exists_last (p : Program) : ∃ n s, p.stateAfter n = some s ∧ p.stateAfter (n + 1) = none := by
  by_contra hnone
  -- the run would go on for ever, and so past the end of the program
  have hall : ∀ n, ∃ s, p.stateAfter n = some s := by
    intro n
    induction n with
    | zero => exact ⟨.start, rfl⟩
    | succ n ih =>
      obtain ⟨s, hs⟩ := ih
      exact Option.ne_none_iff_exists'.mp fun hn => hnone ⟨n, s, hs, hn⟩
  obtain ⟨s, hs⟩ := hall (p.size + 1)
  exact Nat.not_succ_le_self _ (le_size_of_stateAfter hs)

/-- A run ends in a state at a `HALT` or at the end of the program, or with the fault of the item that it comes to.
There is one event for each instruction that was completed. -/
theorem ending_cases (p : Program) :
    ∃ n s, p.stateAfter n = some s ∧ p.run.events.length = n ∧
      (((s.haltIndex ≠ none ∨ n = p.size) ∧ (State.start.walk p.items).2 = .stopped s) ∨
        ∃ item f t, p.ComesTo n s item ∧ s.step item = .faulted f t ∧
          (State.start.walk p.items).2 = .faulted f t) := by
  obtain ⟨n, s, hs, hlast⟩ := exists_last p
  obtain ⟨hstop, hlen⟩ := walk_take hs
  refine ⟨n, s, hs, ?_⟩
  by_cases hrunning : s.haltIndex = none
  · cases hitem : p.items[n]? with
    | none =>
      -- the end of the program
      have hn : n = p.size := Nat.le_antisymm (le_size_of_stateAfter hs) (List.getElem?_eq_none_iff.mp hitem)
      have hall : p.items.take n = p.items := hn ▸ List.take_length
      rw [hall] at hstop hlen
      exact ⟨hlen, .inl ⟨.inr hn, hstop⟩⟩
    | some item =>
      have hc : p.ComesTo n s item := ⟨hs, hrunning, hitem⟩
      cases hstep : s.step item with
      | moved t =>
        -- not possible: there would be a state after this one
        rw [stateAfter_succ_eq_some_iff.mpr ⟨s, item, hc, hstep⟩] at hlast
        cases hlast
      | faulted f t =>
        have hwalk := walk_of_faulted hc hstep
        exact ⟨by rw [Program.run, hwalk]; exact hlen, .inr ⟨item, f, t, hc, hstep, by rw [hwalk]⟩⟩
  · have hwalk : State.start.walk p.items = State.start.walk (p.items.take n) := by
      rw [← walk_append_of_halted hs hrunning (p.items.drop n), List.take_append_drop]
    exact ⟨by rw [Program.run, hwalk]; exact hlen, .inl ⟨.inl hrunning, by rw [hwalk]; exact hstop⟩⟩

/-- Event `k` is about item `k` and shows the stack of the state after it; there is none if the run does not get so
far. -/
theorem events_getElem? (p : Program) (k : Nat) :
    p.run.events[k]? = (p.stateAfter (k + 1)).bind fun t => p.items[k]?.map fun item => ⟨k, item, t.stack⟩ := by
  cases h : p.stateAfter (k + 1) with
  | some t =>
    obtain ⟨s, item, hc, hstep⟩ := stateAfter_succ_eq_some_iff.mp h
    obtain ⟨others, hevents⟩ := exists_events_eq_append h
    have hlen := (walk_take hc.state).2
    rw [hevents, walk_take_succ_moved hc hstep, hc.item, List.append_assoc,
      List.getElem?_append_right (Nat.le_of_eq hlen), hlen, Nat.sub_self]
    rfl
  | none =>
    -- there are `n` events, and all states up to the one after `n` instructions exist
    obtain ⟨n, s, hs, hlen, -⟩ := ending_cases p
    refine List.getElem?_eq_none_iff.mpr (Nat.le_of_not_lt fun hlt => ?_)
    rw [hlen] at hlt
    obtain ⟨t, ht⟩ := exists_stateAfter_of_le hlt hs
    rw [h] at ht
    cases ht

end Program

end StackMachine
