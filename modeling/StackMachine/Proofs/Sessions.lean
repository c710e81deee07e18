import StackMachine.Ports
import StackMachine.Proofs.Tracing

/-!
# Sessions of many runs

Runs on one machine do not get in each other's way. Whatever a session was asked before, a program has the outcome that
it has on a machine of its own, and the buffer holds the traces of the runs that the buffer watched and that were not
cleared away since (`runs_isolated`). Both are read off the session after a sequence of requests (`after_eq`), which one
request at a time leads to (`serve_fst`).
-/

namespace StackMachine

namespace Session

/-- Runs a program for its value alone. -/
def execute (s : Session) (p : Program) : Session × Except Unresolved Int :=
  ((s.run p).1, (s.run p).2.number)

/-- What a session can be asked. -/
inductive Request where
  | run (p : Program)
  | execute (p : Program)
  | watch (watcher : Watcher)
  | clear
  | read
deriving DecidableEq

/-- What a session answers. -/
inductive Reply where
  | ran (outcome : Outcome)
  | executed (result : Except Unresolved Int)
  | done
  | messages (messages : List String)

/-- The session after a request, and its reply. -/
def serve (s : Session) : Request → Session × Reply
  | .run p => ((s.run p).1, .ran (s.run p).2)
  | .execute p => ((s.execute p).1, .executed (s.execute p).2)
  | .watch watcher => (s.watch watcher, .done)
  | .clear => (s.clear, .done)
  | .read => (s, .messages s.buffer)

/-- The session after a sequence of requests. -/
def after (s : Session) : List Request → Session
  | [] => s
  | request :: rest => (s.serve request).1.after rest

/-- The replies to a sequence of requests. -/
def replies (s : Session) : List Request → List Reply
  | [] => []
  | request :: rest => (s.serve request).2 :: (s.serve request).1.replies rest

namespace Request

/-- The trace of the program that is run, if one is. -/
def trace : Request → List String
  | .run p | .execute p => p.trace
  | _ => []

/-- Who watches after the request. -/
def watcherAfter (watcher : Watcher) : Request → Watcher
  | .watch watcher' => watcher'
  | _ => watcher

end Request

/-- The traces of the runs that the buffer watches and that are not cleared away later. -/
def kept (watcher : Watcher) : List Request → List String
  | [] => []
  | request :: rest =>
    (if watcher = .buffer ∧ .clear ∉ rest then request.trace else []) ++ kept (request.watcherAfter watcher) rest

/-- Who watches after a sequence of requests. -/
def lastWatcher (watcher : Watcher) (requests : List Request) : Watcher :=
  requests.foldl Request.watcherAfter watcher

/-! ### One request -/

theorem run_fst (s : Session) (p : Program) :
    (s.run p).1 = ⟨s.watcher, s.buffer ++ if s.watcher = .buffer then p.trace else []⟩ := by
  obtain ⟨_ | _ | _, buffer⟩ := s <;> simp [run, Program.watchedRun_eq]

/-- All that a request does to a session: it may exchange the watcher, and it empties the buffer or adds a trace. -/
theorem serve_fst (s : Session) (request : Request) :
    (s.serve request).1 =
      ⟨request.watcherAfter s.watcher,
        if request = .clear then [] else s.buffer ++ if s.watcher = .buffer then request.trace else []⟩ := by
  cases request with
  | run p | execute p => exact s.run_fst p
  | watch watcher | read => simp [serve, watch, Request.watcherAfter, Request.trace]
  | clear => rfl

/-! ### A sequence of requests -/

theorem after_eq (s : Session) (requests : List Request) :
    s.after requests =
      ⟨lastWatcher s.watcher requests, (if .clear ∈ requests then [] else s.buffer) ++ kept s.watcher requests⟩ := by
  induction requests generalizing s with
  | nil => simp [after, lastWatcher, kept]
  | cons request rest ih =>
    -- what the first request leaves in the buffer is there at the end unless a later one clears it
    rw [after, ih, serve_fst]
    by_cases hrest : Request.clear ∈ rest
    · simp [hrest, lastWatcher, kept]
    · by_cases hclear : request = .clear
      · simp [hclear, hrest, lastWatcher, kept, Request.trace]
      · simp [hclear, Ne.symm hclear, hrest, lastWatcher, kept, List.append_assoc]

theorem buffer_after_start (watcher : Watcher) (requests : List Request) :
    ((start watcher).after requests).buffer = kept watcher requests := by
  rw [after_eq]
  simp [start]

/-- Reply `k` is that of the session after the `k` requests in front. -/
theorem replies_getElem? (s : Session) (requests : List Request) (k : Nat) :
    (s.replies requests)[k]? = requests[k]?.map fun request => ((s.after (requests.take k)).serve request).2 := by
  induction requests generalizing s k with
  | nil => rfl
  | cons request rest ih =>
    cases k with
    | zero => rfl
    | succ k => simpa only [replies, List.getElem?_cons_succ, List.take_succ_cons, after] using ih _ k

/-- Whatever a session was asked before, a program has the outcome of a new session, under any watcher. The buffer holds
the traces, one after the other, of the runs that it watched since it was last cleared. A trace has a message for each
instruction that the run completes, also if an instruction behind them fails. -/
theorem runs_isolated (watcher : Watcher) (requests : List Request) :
    let s := start watcher
    (∀ (k : Nat) (p : Program), requests[k]? = some (.run p) →
      ∀ w, (s.replies requests)[k]? = some (.ran ((start w).run p).2)) ∧
    (∀ (k : Nat) (p : Program), requests[k]? = some (.execute p) →
      ∀ w, (s.replies requests)[k]? = some (.executed ((start w).execute p).2)) ∧
    (∀ k : Nat, requests[k]? = some .read →
      (s.replies requests)[k]? = some (.messages (kept watcher (requests.take k)))) ∧
    (s.after requests).buffer = kept watcher requests ∧
    ∀ (p : Program) k, p.trace[k]? = (p.stateAfter (k + 1)).bind fun t =>
      p.disassemble[k]?.map fun line => line ++ " -> " ++ describeStack t.stack := by
  intro s
  refine ⟨fun k p h w => ?_, fun k p h w => ?_, fun k h => ?_, buffer_after_start watcher requests,
    Program.trace_getElem?⟩
  · rw [replies_getElem?, h, Option.map_some, serve, run_snd, run_snd]
  · rw [replies_getElem?, h, Option.map_some, serve, execute, execute, run_snd, run_snd]
  · rw [replies_getElem?, h, Option.map_some, serve, buffer_after_start]

/-- A run that fails leaves its messages in the buffer, and a later one the messages of its own. -/
example :
    let p : Program := ⟨"sum", [.pushInt (.int 1), .add].map .instruction⟩
    let q : Program := ⟨"one", [.pushInt (.int 1), .halt].map .instruction⟩
    kept .silent [.run q, .watch .buffer, .execute p, .watch .console, .run q, .watch .buffer, .run q] =
      ["0: PUSH_INT 1 -> [1]", "0: PUSH_INT 1 -> [1]", "1: HALT -> [1]"] := by
  decide

end Session

end StackMachine
