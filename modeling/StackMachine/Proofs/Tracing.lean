import StackMachine.Proofs.Conclusion
import StackMachine.Session

/-!
# Watched runs

A watcher gets a message for each instruction that a run completes, and the run is none the worse for it: all that a
message shows can be written out, because well-formed instructions can be and the integers on the stack are words
(`State.watchedWalk_eq`). Message `k` shows instruction `k` and the stack after it (`trace_getElem?`), and how many there
are depends on the stage at which the run fails, if it does (`run_watched`).
-/

namespace StackMachine

/-! ### Under a watcher -/

namespace State

private theorem message?_of_moved {s t : State} {item : Item} (hs : WordStack s.stack) (h : s.step item = .moved t) :
    Event.message? ⟨s.pc, item, t.stack⟩ = some (Event.message ⟨s.pc, item, t.stack⟩) := by
  have hitem := (step_moved_wellFormed h).isWritable
  have hstack : t.stack.all Value.isWritable = true :=
    List.all_eq_true.mpr fun v hv => (step_moved_wordStack hs h v hv).isWritable
  simp only [Event.message?, hitem, hstack, Bool.and_self, ↓reduceIte]

/-- The watcher gets the messages of all events, and the execution ends as it does without a watcher. -/
theorem watchedWalk_eq {s : State} (hs : WordStack s.stack) (items : List Item) :
    s.watchedWalk items = ((s.walk items).1.map Event.message, some (s.walk items).2) := by
  induction items generalizing s with
  | nil => rfl
  | cons item rest ih =>
    cases hstep : s.step item with
    | faulted f t => simp only [watchedWalk, hstep, walk_cons_faulted hstep, List.map_nil]
    | moved t =>
      have hmessage := message?_of_moved hs hstep
      cases ht : t.haltIndex with
      | some n =>
        rw [walk_cons_halted hstep (by simp [ht])]
        simp only [watchedWalk, hstep, hmessage, ht, Option.isSome_some, ↓reduceIte, List.map_cons, List.map_nil]
      | none =>
        rw [walk_cons_moved hstep ht]
        simp [watchedWalk, hstep, hmessage, ht, ih (step_moved_wordStack hs hstep)]

end State

namespace Program

theorem watchedRun_eq (p : Program) : p.watchedRun = (p.trace, p.outcome) := by
  simp only [watchedRun, State.watchedWalk_eq State.wordStack_start, Option.map_some, Option.getD_some]
  rfl

end Program

theorem Session.run_snd (s : Session) (p : Program) : (s.run p).2 = p.outcome := by
  obtain ⟨_ | _ | _, buffer⟩ := s <;> simp [Session.run, Program.watchedRun_eq]

namespace Program

/-! ### The messages -/

/-- Message `k` is line `k` of the program with the stack after instruction `k` behind it; there is none if the run does
not get so far. -/
theorem trace_getElem? (p : Program) (k : Nat) :
    p.trace[k]? = (p.stateAfter (k + 1)).bind fun s =>
      p.disassemble[k]?.map fun line => line ++ " -> " ++ describeStack s.stack := by
  rw [trace, List.getElem?_map, events_getElem?, getElem?_disassemble]
  cases p.stateAfter (k + 1) with
  | none => rfl
  | some s =>
    cases p.items[k]? with
    | none => rfl
    | some item => rfl

theorem length_trace (p : Program) : p.trace.length = p.run.events.length := List.length_map ..

/-- Behind the last line of a program that succeeds stands its value alone. -/
private theorem getLast?_trace_of_value {p : Program} {n : Nat} {s : State} {v : Int} (hs : p.stateAfter n = some s)
    (hstack : s.stack = [.int v]) (hlen : p.trace.length = n) :
    ∃ line, p.disassemble[n - 1]? = some line ∧ p.trace.getLast? = some (line ++ " -> [" ++ toString v ++ "]") := by
  cases n with
  | zero =>
    obtain rfl : State.start = s := Option.some.inj hs
    cases hstack
  | succ k =>
    obtain ⟨_, item, hc, -⟩ := stateAfter_succ_eq_some_iff.mp hs
    have hline : p.disassemble[k]? = some s!"{k}: {item.plain}" := by rw [getElem?_disassemble, hc.item]; rfl
    refine ⟨_, hline, ?_⟩
    have hshown : describeStack s.stack = "[" ++ toString v ++ "]" := by
      simp [describeStack, hstack, Value.describe]
    have harrow : " -> [" = " -> " ++ "[" := rfl
    rw [List.getLast?_eq_getElem?, hlen, Nat.add_sub_cancel, trace_getElem?, hs, hline, Option.bind_some,
      Option.map_some, hshown, harrow]
    simp only [String.append_assoc]

/-- The outcome of a run does not depend on who watches it. A buffer gets the trace, and so does the console, line by
line. Message `k` shows line `k` of the program and the stack after it, and there are as many messages as instructions
that were completed: one for each step, but for an instruction that fails. The last message of a run that succeeds shows
the value. -/
theorem run_watched (p : Program) (buffer : List String) :
    (∀ w, (Session.run ⟨w, buffer⟩ p).2 = p.outcome) ∧
    (Session.run ⟨.buffer, buffer⟩ p).1 = ⟨.buffer, buffer ++ p.trace⟩ ∧
    (∀ w, w ≠ .buffer → (Session.run ⟨w, buffer⟩ p).1 = ⟨w, buffer⟩) ∧
    Session.printed ⟨.console, buffer⟩ p = String.join (p.trace.map (· ++ "\n")) ∧
    (∀ w, w ≠ .console → Session.printed ⟨w, buffer⟩ p = "") ∧
    (∀ k, p.trace[k]? = (p.stateAfter (k + 1)).bind fun s => p.disassemble[k]?.map fun line =>
      line ++ " -> [" ++ ", ".intercalate (s.stack.reverse.map Value.describe) ++ "]") ∧
    match p.outcome with
    | .halted v s => p.trace.length = s.steps ∧
        ∃ line, p.disassemble[s.steps - 1]? = some line ∧
          p.trace.getLast? = some (line ++ " -> [" ++ toString v ++ "]")
    | .faulted f s =>
      match f.cause.stage with
      | .rejection | .result => p.trace.length = s.steps
      | .execution => p.trace.length + 1 = s.steps
    | .unwritable => ∃ s item, p.ComesTo p.trace.length s item ∧ item.isWritable = false := by
  refine ⟨?_, ?_, ?_, ?_, ?_, fun k => ?_, ?_⟩
  · exact fun w => Session.run_snd ⟨w, buffer⟩ p
  · simp [Session.run, watchedRun_eq]
  · rintro (_ | _ | _) hw <;> first | rfl | exact absurd rfl hw
  · simp [Session.printed, watchedRun_eq]
  · rintro (_ | _ | _) hw <;> first | rfl | exact absurd rfl hw
  · simp only [trace_getElem?, describeStack, String.append_assoc]
    rfl
  · have hconcludes := p.concludes
    rw [← length_trace] at hconcludes
    generalize hn : p.trace.length = n, p.outcome = outcome at hconcludes
    cases hconcludes with
    | value hs _ hstack =>
      have hsteps := steps_of_stateAfter hs
      exact ⟨hsteps.symm, hsteps ▸ getLast?_trace_of_value hs hstack hn⟩
    | result hs _ hstage =>
      dsimp only
      rw [hstage]
      exact (steps_of_stateAfter hs).symm
    | fault hc hstep =>
      -- a rejected item is not counted as a step; an instruction that fails is, and it has no message
      have hsteps := steps_of_stateAfter hc.state
      dsimp only
      rcases State.step_faulted_cases hstep with ⟨hstage, rfl⟩ | ⟨hstage, stack, -, rfl⟩ <;> rw [hstage]
      · exact hsteps.symm
      · exact congrArg (· + 1) hsteps.symm
    | unwritable hc hitem => exact ⟨_, _, hc, hitem⟩

end Program

end StackMachine
