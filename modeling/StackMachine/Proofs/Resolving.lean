import StackMachine.Ports
import StackMachine.Proofs.Registration
import StackMachine.Proofs.Tracing

/-!
# Resolving ports

Resolving a name adds nothing to compiling it and running its program, and hides nothing of what they do (`resolve_eq`):
the result is theirs, their records and requests are all there, and a failure that is reported leaves one record more.
The programs are those of the templates of the moment, whatever was resolved before (`Sound.compile_snd`,
`program_compile`), so the expected ports can be resolved one after the other without regard to each other
(`resolveExpected_eq`, `validatePorts_eq`). All of this holds after any sequence of requests (`service_after`).
-/

namespace StackMachine

/-- The report of a failure that is reported. -/
def Unresolved.report? : Unresolved → Option Report
  | refused refusal => refusal.report?
  | faulted f _ => some f.report
  | unwritable | missing => none

/-- The record of a result: one for a failure that is reported, none otherwise. -/
def failureLogs (name : String) : Except Unresolved Int → List LogRecord
  | .ok _ => []
  | .error u =>
    match u.report? with
    | some report => [⟨.error, .ports, s!"Failed to resolve port '{name}': {report.message}"⟩]
    | none => []

theorem Unresolved.logs_eq (name : String) (u : Unresolved) : u.logs name = failureLogs name (.error u) := by
  cases u with
  | refused refusal => cases h : refusal.report? <;> simp [logs, message?, failureLogs, report?, h]
  | faulted | unwritable | missing => rfl

theorem Outcome.source_of_mem_logs {o : Outcome} {name : String} {record : LogRecord} (h : record ∈ o.logs name) :
    record.source = .machine := by
  cases o with
  | halted | unwritable => cases h
  | faulted f s => exact List.mem_singleton.mp h ▸ rfl

namespace Catalog

/-! ### What a name stands for -/

/-- The program that stands under a name at the moment. -/
def program (c : Catalog) (name : String) : Except Unresolved Program :=
  match c with
  | registry r =>
    match r.templates[name]? with
    | some items => .ok ⟨name, items⟩
    | none => .error (.refused (.unknownProgram name r.names))
  | table programs =>
    match lookup? programs name with
    | some p => .ok p
    | none => .error .missing

/-- The number of a name: its program is compiled and run on a new machine. -/
def evaluate (c : Catalog) (name : String) : Except Unresolved Int :=
  (c.compile name).2.bind fun p => ((Session.start .silent).run p).2.number

/-- The records of compiling a name and running its program. -/
def evaluationLogs (c : Catalog) (name : String) : List LogRecord :=
  c.compileLogs name ++
    match (c.compile name).2 with
    | .ok p => ((Session.start .silent).run p).2.logs name
    | .error _ => []

/-- The requests of compiling a name and, if it gives a program, running it. -/
def evaluationCalls (c : Catalog) (name : String) : List Call :=
  .compile name ::
    match (c.compile name).2 with
    | .ok _ => [.execute name]
    | .error _ => []

/-- The warnings about the expected ports that have other numbers. -/
def warnings (c : Catalog) : List LogRecord :=
  expectedPorts.filterMap fun (name, expected) =>
    match c.evaluate name with
    | .ok value =>
      if value = expected then none
      else some ⟨.warning, .ports, s!"Port '{name}' resolved to {value}, expected {expected}"⟩
    | .error _ => none

variable {c : Catalog} {name : String}

theorem source_of_mem_compileLogs {record : LogRecord} (h : record ∈ c.compileLogs name) :
    record.source = .compiler := by
  cases c with
  | table programs => cases h
  | registry r =>
    simp only [compileLogs, Registry.compileLogs] at h
    split at h
    · exact List.mem_singleton.mp h ▸ rfl
    · cases h

theorem source_of_mem_evaluationLogs {record : LogRecord} (h : record ∈ c.evaluationLogs name) :
    record.source ≠ .ports := by
  rcases List.mem_append.mp h with h | h
  · simp [source_of_mem_compileLogs h]
  · split at h
    · simp [Outcome.source_of_mem_logs h]
    · cases h

theorem program_compile (c : Catalog) (name n : String) : (c.compile name).1.program n = c.program n := by
  cases c with
  | registry r => simp only [Catalog.compile, program, Registry.compile_templates, Registry.names_compile]
  | table programs => cases h : lookup? programs name <;> simp only [Catalog.compile, h]

/-! ### Sound catalogs -/

/-- A registry is sound; a table need not be anything. -/
def Sound : Catalog → Prop
  | registry r => r.Sound
  | table _ => True

namespace Sound

theorem compile (hc : c.Sound) (name : String) : (c.compile name).1.Sound := by
  cases c with
  | registry r => exact Registry.Sound.compile hc name
  | table programs => cases h : lookup? programs name <;> simp only [Catalog.compile, h] <;> trivial

theorem register (hc : c.Sound) (name : Literal) (items : List Item) : (c.register name items).1.Sound := by
  cases c with
  | registry r => exact Registry.Sound.register hc name items
  | table programs => trivial

/-- What a name is compiled to is the program that stands under it, and not one that stood there before. -/
theorem compile_snd (hc : c.Sound) (name : String) : (c.compile name).2 = c.program name := by
  cases c with
  | registry r =>
    simp only [Catalog.compile, program, Registry.Sound.compile_snd hc]
    cases r.templates[name]? <;> rfl
  | table programs => cases h : lookup? programs name <;> simp only [Catalog.compile, program, h]

theorem evaluate_compile (hc : c.Sound) (name n : String) : (c.compile name).1.evaluate n = c.evaluate n := by
  rw [evaluate, evaluate, (hc.compile name).compile_snd, program_compile, hc.compile_snd]

end Sound

theorem name_of_program {p : Program} (h : c.program name = .ok p) : p.name = name := by
  cases c with
  | registry r =>
    simp only [program] at h
    split at h
    · injection h with h
      exact h ▸ rfl
    · cases h
  | table programs =>
    simp only [program] at h
    split at h
    next q hq =>
      injection h with h
      obtain ⟨items, -, rfl⟩ := Option.map_eq_some_iff.mp hq
      exact h ▸ rfl
    next => cases h

/-! ### One name -/

theorem resolve_eq (hc : c.Sound) (name : String) :
    c.resolve name =
      ((c.compile name).1,
        ⟨c.evaluate name, c.evaluationLogs name ++ failureLogs name (c.evaluate name), c.evaluationCalls name⟩) := by
  have hprogram := hc.compile_snd name
  unfold resolve evaluate evaluationLogs evaluationCalls
  rcases hcompile : c.compile name with ⟨c', u | p⟩
  · simp only [Except.bind, List.append_nil, Unresolved.logs_eq]
  · obtain rfl : p.name = name := name_of_program (hprogram.symm.trans (by rw [hcompile]))
    have hrun : ((Session.start .silent).run p).2 = p.outcome := rfl
    simp only [Except.bind, hrun]
    cases p.outcome.number with
    | ok value => simp only [failureLogs, List.append_nil]
    | error u => simp only [Unresolved.logs_eq]

theorem Sound.resolve (hc : c.Sound) (name : String) : (c.resolve name).1.Sound := by
  rw [resolve_eq hc]
  exact hc.compile name

/-! ### The expected names -/

theorem resolveAll_cons (c : Catalog) (name : String) (rest : List String) :
    c.resolveAll (name :: rest) =
      let first := c.resolve name
      let others := first.1.resolveAll rest
      match first.2.result with
      | .error u => (first.1, ⟨.error u, first.2.logs, first.2.calls⟩)
      | .ok value =>
        (others.1, ⟨others.2.result.map ((name, value) :: ·), first.2.logs ++ others.2.logs,
          first.2.calls ++ others.2.calls⟩) := by
  rw [resolveAll]
  rcases c.resolve name with ⟨c', ⟨_ | _, logs, calls⟩⟩ <;> rfl

theorem resolveAll_singleton (c : Catalog) (name : String) :
    c.resolveAll [name] =
      let only := c.resolve name
      (only.1, ⟨only.2.result.map fun value => [(name, value)], only.2.logs, only.2.calls⟩) := by
  rw [resolveAll_cons]
  rcases c.resolve name with ⟨c', ⟨_ | _, logs, calls⟩⟩ <;> simp [resolveAll, Except.map]

/-- The backend is resolved after the frontend, unless that fails. -/
theorem resolveExpected_eq (hc : c.Sound) :
    c.resolveExpected =
      let front := c.resolve "frontend"
      let back := front.1.resolve "backend"
      match c.evaluate "frontend" with
      | .error u => (front.1, ⟨.error u, front.2.logs, front.2.calls⟩)
      | .ok n =>
        (back.1, ⟨(c.evaluate "backend").map fun m => [("frontend", n), ("backend", m)], front.2.logs ++ back.2.logs,
          front.2.calls ++ back.2.calls⟩) := by
  have hfront : (c.resolve "frontend").2.result = c.evaluate "frontend" := by rw [resolve_eq hc]
  have hback : ((c.resolve "frontend").1.resolve "backend").2.result = c.evaluate "backend" := by
    rw [resolve_eq hc, resolve_eq (hc.compile _), hc.evaluate_compile]
  show c.resolveAll ["frontend", "backend"] = _
  simp only [resolveAll_cons _ "frontend", resolveAll_singleton, hfront, hback]
  cases c.evaluate "frontend" with
  | error u => rfl
  | ok n => cases c.evaluate "backend" <;> rfl

theorem evaluate_of_resolveExpected (hc : c.Sound) {ports : List (String × Int)}
    (h : c.resolveExpected.2.result = .ok ports) :
    ∃ n m, c.evaluate "frontend" = .ok n ∧ c.evaluate "backend" = .ok m ∧
      ports = [("frontend", n), ("backend", m)] := by
  rw [resolveExpected_eq hc] at h
  cases hn : c.evaluate "frontend" with
  | error u => rw [hn] at h; cases h
  | ok n =>
    cases hm : c.evaluate "backend" with
    | error u => rw [hn, hm] at h; cases h
    | ok m =>
      rw [hn, hm] at h
      exact ⟨n, m, rfl, rfl, (Except.ok.inj h).symm⟩

/-- Checking the ports is resolving them, with a warning for each that has another number. -/
theorem validatePorts_eq (hc : c.Sound) :
    c.validatePorts =
      let all := c.resolveExpected
      match all.2.result with
      | .error u => (all.1, ⟨.error u, all.2.logs, all.2.calls⟩)
      | .ok _ => (all.1, ⟨.ok c.warnings.isEmpty, all.2.logs ++ c.warnings, all.2.calls⟩) := by
  have hwarnings : ∀ ports, c.resolveExpected.2.result = .ok ports → mismatches ports = c.warnings := by
    intro ports h
    obtain ⟨n, m, hn, hm, rfl⟩ := evaluate_of_resolveExpected hc h
    simp only [mismatches, warnings, expectedPorts, List.zip_cons_cons, List.zip_nil_right, List.filterMap_cons,
      List.filterMap_nil, hn, hm]
  unfold validatePorts
  rcases hall : c.resolveExpected with ⟨c', ⟨u | ports, logs, calls⟩⟩
  · rfl
  · simp only [hwarnings ports (by rw [hall])]

theorem isEmpty_warnings_iff {n m : Int} (hn : c.evaluate "frontend" = .ok n) (hm : c.evaluate "backend" = .ok m) :
    c.warnings.isEmpty = true ↔ c.evaluate "frontend" = .ok 6969 ∧ c.evaluate "backend" = .ok 42069 := by
  simp [warnings, expectedPorts, hn, hm]

/-! ### A service in use -/

/-- What a service of named ports can be asked. -/
inductive Request where
  | get (name : String)
  | frontend
  | backend
  | all
  | validate
  | register (name : Literal) (items : List Item)

/-- The catalog after a request. -/
def next (c : Catalog) : Request → Catalog
  | .get name => (c.resolve name).1
  | .frontend => (c.resolve "frontend").1
  | .backend => (c.resolve "backend").1
  | .all => c.resolveExpected.1
  | .validate => c.validatePorts.1
  | .register name items => (c.register name items).1

/-- The catalog after a sequence of requests. -/
def after (c : Catalog) (requests : List Request) : Catalog :=
  requests.foldl next c

/-- A catalog that a service can start with: a registry whose construction succeeded, or any table. -/
inductive Initial : Catalog → Prop where
  | registry {caching : Bool} {pairs : List (Literal × List Item)} {r : Registry}
      (h : (Registry.ofPairs caching pairs).1 = .ok r) : Initial (.registry r)
  | table (programs : List (String × List Item)) : Initial (.table programs)

theorem Initial.sound (h : c.Initial) : c.Sound := by
  cases h with
  | registry h => exact Registry.sound_of_ofPairs h
  | table programs => trivial

theorem Sound.resolveExpected (hc : c.Sound) : c.resolveExpected.1.Sound := by
  have hfront := hc.resolve "frontend"
  rw [resolveExpected_eq hc]
  cases c.evaluate "frontend" with
  | error u => exact hfront
  | ok n => exact hfront.resolve "backend"

theorem Sound.next (hc : c.Sound) (request : Request) : (c.next request).Sound := by
  cases request with
  | get name => exact hc.resolve name
  | frontend | backend => exact hc.resolve _
  | all => exact hc.resolveExpected
  | validate =>
    have hall := hc.resolveExpected
    simp only [Catalog.next, validatePorts_eq hc]
    cases c.resolveExpected.2.result <;> exact hall
  | register name items => exact hc.register name items

theorem Sound.after (hc : c.Sound) (requests : List Request) : (c.after requests).Sound := by
  induction requests generalizing c with
  | nil => exact hc
  | cons request rest ih => exact ih (hc.next request)

/-- Whatever a service was asked before: the port of a name is what compiling the name and running its program gives, on
a new machine or on one that was used, with the records of both, and with one record of the service behind them for a
failure that is reported. A program is asked for, and run if there is one. The expected ports are resolved in their
order until one of them fails, and checking them fails in the same way; otherwise it leaves a warning for each port that
has another number, and tells whether there is none. -/
theorem service_after (c₀ : Catalog) (h : c₀.Initial) (requests : List Request) :
    let c := c₀.after requests
    let front := c.resolve "frontend"
    let back := front.1.resolve "backend"
    let all := c.resolveExpected
    (∀ name,
      (c.compile name).2 = c.program name ∧
      (c.resolve name).2 =
        ⟨c.evaluate name, c.evaluationLogs name ++ failureLogs name (c.evaluate name), c.evaluationCalls name⟩ ∧
      (∀ machine : Session, ((c.compile name).2.bind fun p => (machine.run p).2.number) = c.evaluate name) ∧
      ∀ record ∈ c.evaluationLogs name, record.source ≠ .ports) ∧
    (match c.evaluate "frontend" with
      | .error u => all = (front.1, ⟨.error u, front.2.logs, front.2.calls⟩)
      | .ok n => all = (back.1, ⟨(c.evaluate "backend").map fun m => [("frontend", n), ("backend", m)],
          front.2.logs ++ back.2.logs, front.2.calls ++ back.2.calls⟩)) ∧
    match all.2.result with
    | .error u => c.validatePorts = (all.1, ⟨.error u, all.2.logs, all.2.calls⟩)
    | .ok _ => ∃ valid, c.validatePorts = (all.1, ⟨.ok valid, all.2.logs ++ c.warnings, all.2.calls⟩) ∧
        (valid = true ↔ c.evaluate "frontend" = .ok 6969 ∧ c.evaluate "backend" = .ok 42069) := by
  intro c front back all
  have hc : c.Sound := h.sound.after requests
  refine ⟨fun name => ⟨hc.compile_snd name, ?_, fun machine => ?_, fun _ => source_of_mem_evaluationLogs⟩, ?_, ?_⟩
  · rw [resolve_eq hc]
  · simp only [evaluate, Session.run_snd]
  · have hall := resolveExpected_eq hc
    cases hn : c.evaluate "frontend" <;> rw [hn] at hall <;> exact hall
  · have hvalidate := validatePorts_eq hc
    cases hresult : all.2.result with
    | error u => simpa only [show c.resolveExpected.2.result = .error u from hresult] using hvalidate
    | ok ports =>
      obtain ⟨n, m, hn, hm, -⟩ := evaluate_of_resolveExpected hc hresult
      refine ⟨c.warnings.isEmpty, ?_, isEmpty_warnings_iff hn hm⟩
      simpa only [show c.resolveExpected.2.result = .ok ports from hresult] using hvalidate

/-- A port that is registered anew has its new number, which is not the expected one, and only a name that is not
registered leaves a record of the service. -/
theorem service_after_registration :
    let requests : List Request := [.frontend, .register (.text "frontend") [.instruction (.pushInt (.int 7))]]
    let c := (registry .default).after requests
    (Registry.ofPairs true defaultPairs).1 = .ok .default ∧
    (c.resolve "frontend").2 =
      ⟨.ok 7, [⟨.debug, .compiler, "Compiled program 'frontend' (1 instructions)"⟩],
        [.compile "frontend", .execute "frontend"]⟩ ∧
    (c.resolve "nobody").2 =
      ⟨.error (.refused (.unknownProgram "nobody" ["backend", "frontend"])),
        [⟨.error, .ports, "Failed to resolve port 'nobody': Unknown program: 'nobody'"⟩], [.compile "nobody"]⟩ ∧
    c.validatePorts.2.result = .ok false := by
  intro requests c
  have hdefault : (Registry.ofPairs true defaultPairs).1 = .ok .default := rfl
  have h := (service_after _ (.registry hdefault) requests).1
  exact ⟨hdefault, (h "frontend").2.1.trans rfl, (h "nobody").2.1.trans rfl, rfl⟩

end Catalog

end StackMachine
