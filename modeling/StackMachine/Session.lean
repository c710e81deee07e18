import StackMachine.Machine

/-!
# Sessions

A session runs programs on one machine whose trace goes to a watcher that can be exchanged at any time. The watcher is
told of an instruction as soon as it is completed. The session's buffer outlives the runs; the console does not hold
anything.
-/

namespace StackMachine

/-- Who receives the trace messages of a run. -/
inductive Watcher where
  | silent
  | buffer
  | console
deriving DecidableEq

/-- The event on one line, if it can be written out. -/
def Event.message? (e : Event) : Option String :=
  if e.item.isWritable && e.stack.all Value.isWritable then some e.message else none

/-- Executes items as `State.walk` does, under a watcher: it gets the message of an event before the next item is looked
at, and a message that cannot be written ends the execution. -/
def State.watchedWalk (s : State) : List Item → List String × Option Ending
  | [] => ([], some (.stopped s))
  | item :: rest =>
    match s.step item with
    | .faulted f t => ([], some (.faulted f t))
    | .moved t =>
      match Event.message? ⟨s.pc, item, t.stack⟩ with
      | none => ([], none)
      | some message =>
        if t.haltIndex.isSome then ([message], some (.stopped t))
        else
          let others := t.watchedWalk rest
          (message :: others.1, others.2)

/-- Runs a program under a watcher: the messages that it gets, and the outcome. -/
def Program.watchedRun (p : Program) : List String × Outcome :=
  let walked := State.start.watchedWalk p.items
  (walked.1, (walked.2.map (Ending.outcome p.name)).getD .unwritable)

/-- A machine with its watcher, and the messages in the buffer. -/
structure Session where
  watcher : Watcher
  buffer : List String
deriving DecidableEq

namespace Session

/-- A session with an empty buffer. -/
def start (watcher : Watcher) : Session := ⟨watcher, []⟩

/-- Exchanges the watcher. -/
def watch (s : Session) (watcher : Watcher) : Session := { s with watcher := watcher }

/-- Empties the buffer. -/
def clear (s : Session) : Session := { s with buffer := [] }

/-- Runs a program; a buffering watcher appends the messages to the buffer. -/
def run (s : Session) (p : Program) : Session × Outcome :=
  match s.watcher with
  | .silent => (s, p.outcome)
  | .console => (s, p.watchedRun.2)
  | .buffer => ({ s with buffer := s.buffer ++ p.watchedRun.1 }, p.watchedRun.2)

/-- What running a program prints: one line for each message, if the watcher is the console. -/
def printed (s : Session) (p : Program) : String :=
  match s.watcher with
  | .console => String.join (p.watchedRun.1.map (· ++ "\n"))
  | _ => ""

end Session

end StackMachine
