import StackMachine.Machine
import StackMachine.Registry

/-!
# Named ports

A port is resolved by compiling its name and running the program; the result is the port's number. What compiles the
names is a registry, or a plain table of programs that hands them out unchecked. Two ports are expected to have known
numbers.
-/

namespace StackMachine

/-- What names are compiled by. -/
inductive Catalog where
  | registry (r : Registry)
  | table (programs : List (String × List Item))

/-- A request that resolving a port makes. -/
inductive Call where
  | compile (name : String)
  | execute (name : String)
deriving DecidableEq

/-- Why a port has no number. -/
inductive Unresolved where
  /-- The registry turned the name down. -/
  | refused (refusal : Refusal)
  /-- The run failed. -/
  | faulted (f : Fault) (s : State)
  /-- The report of the run would hold an integer too long to be written. -/
  | unwritable
  /-- The table has no such name. -/
  | missing
deriving DecidableEq

/-- The message of a failure that is reported, rather than being a defect of the table or of the report itself. -/
def Unresolved.message? : Unresolved → Option String
  | refused refusal => refusal.report?.map Report.message
  | faulted f _ => some f.cause.message
  | unwritable | missing => none

/-- A result together with the records and the requests that led to it. -/
structure Resolution (α : Type) where
  result : Except Unresolved α
  logs : List LogRecord
  calls : List Call

/-- The integer of a run. -/
def Outcome.number : Outcome → Except Unresolved Int
  | .halted value _ => .ok value
  | .faulted f s => .error (.faulted f s)
  | .unwritable => .error .unwritable

/-- The record of a failure, if the failure is reported. -/
def Unresolved.logs (name : String) (u : Unresolved) : List LogRecord :=
  match u.message? with
  | some message => [⟨.error, .ports, s!"Failed to resolve port '{name}': {message}"⟩]
  | none => []

namespace Catalog

/-- The program that a table holds under a name; of several the last one counts. -/
def lookup? (programs : List (String × List Item)) (name : String) : Option Program :=
  (programs.reverse.lookup name).map fun items => ⟨name, items⟩

/-- Compiles a name. -/
def compile (c : Catalog) (name : String) : Catalog × Except Unresolved Program :=
  match c with
  | registry r =>
    let (r', result) := r.compile name
    (registry r', result.mapError .refused)
  | table programs =>
    match lookup? programs name with
    | some p => (c, .ok p)
    | none => (c, .error .missing)

/-- The records that compiling a name leaves. -/
def compileLogs (c : Catalog) (name : String) : List LogRecord :=
  match c with
  | registry r => r.compileLogs name
  | table _ => []

/-- Resolves a name: compiles it, and runs the program if there is one. -/
def resolve (c : Catalog) (name : String) : Catalog × Resolution Int :=
  let logs := c.compileLogs name
  match c.compile name with
  | (c', .ok p) =>
    let outcome := p.outcome
    let logs := logs ++ outcome.logs p.name
    let calls := [.compile name, .execute p.name]
    match outcome.number with
    | .ok value => (c', ⟨.ok value, logs, calls⟩)
    | .error u => (c', ⟨.error u, logs ++ u.logs name, calls⟩)
  | (c', .error u) => (c', ⟨.error u, logs ++ u.logs name, [.compile name]⟩)

/-- Resolves names one after the other until one of them fails. -/
def resolveAll (c : Catalog) : List String → Catalog × Resolution (List (String × Int))
  | [] => (c, ⟨.ok [], [], []⟩)
  | name :: rest =>
    match c.resolve name with
    | (c', ⟨.ok value, logs, calls⟩) =>
      let (c'', others) := resolveAll c' rest
      (c'', ⟨others.result.map ((name, value) :: ·), logs ++ others.logs, calls ++ others.calls⟩)
    | (c', ⟨.error u, logs, calls⟩) => (c', ⟨.error u, logs, calls⟩)

end Catalog

/-- The ports that are expected, with their numbers. -/
def expectedPorts : List (String × Int) :=
  [("frontend", 6969), ("backend", 42069)]

/-- The records of the ports whose numbers are not the expected ones. -/
def mismatches (ports : List (String × Int)) : List LogRecord :=
  (ports.zip expectedPorts).filterMap fun ((name, value), (_, expected)) =>
    if value = expected then none
    else some ⟨.warning, .ports, s!"Port '{name}' resolved to {value}, expected {expected}"⟩

namespace Catalog

/-- Resolves all expected ports. -/
def resolveExpected (c : Catalog) : Catalog × Resolution (List (String × Int)) :=
  c.resolveAll (expectedPorts.map Prod.fst)

/-- Whether all expected ports have the expected numbers; each that has another one leaves a warning. -/
def validatePorts (c : Catalog) : Catalog × Resolution Bool :=
  match c.resolveExpected with
  | (c', ⟨.ok ports, logs, calls⟩) =>
    let warnings := mismatches ports
    (c', ⟨.ok warnings.isEmpty, logs ++ warnings, calls⟩)
  | (c', ⟨.error u, logs, calls⟩) => (c', ⟨.error u, logs, calls⟩)

/-- Registers a template, if the catalog is a registry. -/
def register (c : Catalog) (name : Literal) (items : List Item) : Catalog × Option (Except Refusal Unit) :=
  match c with
  | registry r =>
    let (r', result) := r.register name items
    (registry r', some result)
  | table _ => (c, none)

end Catalog

end StackMachine
