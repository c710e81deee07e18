import StackMachine.Proofs.Registration
import StackMachine.Proofs.Tracing

/-!
# How requests can fail

A run gives a value or reports a fault, the checker gives a verdict, and a registration succeeds or is refused with a
reason, unless the report would show an integer that is too long to be written. When that happens is a matter of a single
item: the one that the run comes to (`outcome_isDocumented_iff`), or the one that the checker stops at
(`validate_isDocumented_iff`).
-/

namespace StackMachine

open Validation

/-! ### The documented failures -/

/-- A run gives a value, or it reports a fault of the execution together with the state that the fault left. -/
def Outcome.IsDocumented : Outcome → Prop
  | .halted .. => True
  | .faulted f _ => .execution ∈ f.report.kind.lineage
  | .unwritable => False

/-- The checker accepts the program, or says what is wrong with it. -/
def Verdict.IsDocumented : Verdict → Prop
  | .accepted _ | .rejected _ => True
  | .unwritable => False

/-- A registration succeeds, or is refused with a report that calls the name or the template bad. -/
def Registry.IsDocumented : Except Refusal Unit → Prop
  | .ok _ => True
  | .error refusal => ∃ report, refusal.report? = some report ∧ report.kind = .badTemplate

theorem Cause.execution_mem_lineage (cause : Cause) : .execution ∈ cause.kind.lineage := by
  cases cause <;> simp [Cause.kind, Report.Kind.lineage]

theorem Outcome.isDocumented_iff {o : Outcome} : o.IsDocumented ↔ o ≠ .unwritable := by
  cases o with
  | halted => simp [IsDocumented]
  | faulted f s => exact iff_of_true f.cause.execution_mem_lineage (by simp)
  | unwritable => simp [IsDocumented]

theorem Verdict.isDocumented_iff {v : Verdict} : v.IsDocumented ↔ v ≠ .unwritable := by
  cases v <;> simp [IsDocumented]

/-- Only an item that the run comes to can keep its outcome from being reported. -/
theorem outcome_isDocumented_iff (p : Program) :
    p.outcome.IsDocumented ↔ ∀ k s item, p.ComesTo k s item → item.isWritable = true := by
  rw [Outcome.isDocumented_iff]
  constructor
  · intro h k s item hc
    by_contra hitem
    exact h (Program.outcome_of_not_isWritable hc (by simpa using hitem))
  · intro h ho
    have hconcludes := p.concludes
    rw [ho] at hconcludes
    cases hconcludes with
    | unwritable hc hitem =>
      rw [h _ _ _ hc] at hitem
      cases hitem

/-! ### The checker -/

/-- What is wrong with a program of well-formed instructions can be said. -/
private theorem isWritable_of_wellFormed {p : Program} (hwf : ∀ item ∈ p.items, item.WellFormed) {r : Rejection}
    (h : p.check = .error r) : r.violation.isWritable = true := by
  rcases check_cases p with ⟨-, hc⟩ | ⟨before, item, rest, violation, op, hp, hr, -⟩ | ⟨is, -, -, -, hc⟩
  · rw [hc] at h
    injection h with h
    exact h ▸ rfl
  · exact absurd (hwf item (by simp [hp])) hr.not_wellFormed
  · rw [hc] at h
    rcases followDepth_error h with ⟨_, _, _, _, -, rfl⟩ | ⟨_, _, _, _, -, -, rfl⟩ | ⟨_, rfl⟩ |
      ⟨_, _, _, _, _, -, -, -, rfl⟩ <;> rfl

theorem validate_of_check {p : Program} {r : Rejection} (h : p.check = .error r) :
    p.validate = if r.violation.isWritable then .rejected r else .unwritable := by
  simp only [Program.validate, h]

/-- Only the first malformed item of a program can keep the checker from saying what is wrong. -/
theorem validate_isDocumented_iff (p : Program) :
    p.validate.IsDocumented ↔ ∀ item, firstMalformed? p.items = some item → item.isWritable = true := by
  rw [Verdict.isDocumented_iff]
  cases hfirst : firstMalformed? p.items with
  | some item =>
    obtain ⟨before, rest, violation, op, -, hr, hcheck⟩ := check_of_firstMalformed hfirst
    rw [validate_of_check hcheck, hr.isWritable_eq]
    cases hitem : item.isWritable <;> simp [hitem]
  | none =>
    have hwf := wellFormed_of_firstMalformed hfirst
    refine ⟨by simp, fun _ => ?_⟩
    cases hcheck : p.check with
    | ok summary =>
      rw [validate_eq_accepted_iff.mpr hcheck]
      simp
    | error r =>
      rw [validate_of_check hcheck, isWritable_of_wellFormed hwf hcheck]
      simp

/-! ### Registrations -/

namespace Registry

private theorem register_snd (r : Registry) (name : Literal) (items : List Item) :
    (r.register name items).2 = (accept name items).map fun _ => () := by
  rcases r.register_cases name items with ⟨s, ha, hr⟩ | ⟨refusal, ha, hr⟩ <;> rw [ha, hr] <;> rfl

/-- A registration keeps silent about a name that cannot be written out, and about a template of which the checker cannot
say what is wrong. -/
theorem register_isDocumented_iff (r : Registry) (name : Literal) (items : List Item) :
    IsDocumented (r.register name items).2 ↔
      name.isWritable = true ∧ ∀ s, name = .text s → s ≠ "" → (⟨s, items⟩ : Program).validate.IsDocumented := by
  rw [register_snd]
  cases name with
  | text s =>
    have hs : IsDocumented ((accept (.text s) items).map fun _ => ()) ↔
        (s ≠ "" → (⟨s, items⟩ : Program).validate.IsDocumented) := by
      rw [accept_text]
      by_cases hempty : s = ""
      · simp [hempty, Except.map, IsDocumented, Refusal.report?]
      · rw [if_neg hempty, checkTemplate]
        cases (⟨s, items⟩ : Program).validate <;>
          simp [hempty, Except.map, IsDocumented, Refusal.report?, Verdict.IsDocumented]
    rw [hs]
    simp [Literal.isWritable]
  | null | bool | object => simp [accept, Except.map, IsDocumented, Refusal.report?, Literal.isWritable]
  | int n =>
    by_cases hn : Decimal.isWritable n = true <;>
      simp [accept, Except.map, IsDocumented, Refusal.report?, Literal.isWritable, hn]

end Registry

/-! ### Literals that are no words -/

private theorem isWritable_pushInt (n : Int) :
    (Item.instruction (.pushInt (.int n))).isWritable = Decimal.isWritable n := by
  simp only [Item.isWritable, Instruction.isWritable, Instruction.pushInt, Literal.isWritable]

/-- A run that comes to a literal that is no word reports an overflow, if the literal can be written out. -/
theorem outcome_of_literal {p : Program} {k : Nat} {s : State} {n : Int}
    (hc : p.ComesTo k s (.instruction (.pushInt (.int n)))) (hn : Word.fits n = false)
    (hw : Decimal.isWritable n = true) : p.outcome.FaultsWith .arithmeticOverflow k (some .pushInt) := by
  have hstep : s.step (.instruction (.pushInt (.int n))) =
      .faulted ⟨.overflow .pushInt n, s.pc, some .pushInt⟩ { s.advance with stack := s.stack } := by
    simp [State.step, Instruction.pushInt, Opcode.operandKind, Instruction.exec, Effect.pushWord, hn]
  rw [Program.outcome_of_isWritable hc hstep ((isWritable_pushInt n).trans hw)]
  exact ⟨rfl, Program.pc_of_stateAfter hc.state, rfl⟩

/-- A literal that is no word is out of range, if it is the first thing that is wrong and can be written out. -/
theorem validate_of_literal {p : Program} {n : Int}
    (h : firstMalformed? p.items = some (.instruction (.pushInt (.int n)))) (hw : Decimal.isWritable n = true) :
    ∃ r, p.validate = .rejected r ∧ r.violation.kind = .operandOutOfRange := by
  obtain ⟨before, rest, violation, op, -, hr, hcheck⟩ := check_of_firstMalformed h
  have hvalidate : p.validate = .rejected ⟨violation, some before.length, op⟩ := by
    rw [validate_of_check hcheck, hr.isWritable_eq, isWritable_pushInt, hw, if_pos rfl]
  refine ⟨_, hvalidate, ?_⟩
  cases hr with
  | item hitem => exact absurd rfl (hitem _)
  | operand hv =>
    simp only [operandViolation?, Instruction.pushInt, Opcode.operandKind, Literal.integer?_int,
      Option.ite_none_left_eq_some] at hv
    exact Option.some.inj hv.2 ▸ rfl

/-! ### The whole contract -/

/-- A run, watched or not, gives a value or reports a fault if every item that it comes to can be written out, and only
then. The checker and a registration are as documented if the first malformed item can be written out, and the name
can. In particular a literal that is no word is reported as such if it can be written out. -/
theorem documented_iff (p : Program) (session : Session) (r : Registry) (name : Literal) :
    ((session.run p).2.IsDocumented ↔ ∀ k s item, p.ComesTo k s item → item.isWritable = true) ∧
    (p.validate.IsDocumented ↔ ∀ item, firstMalformed? p.items = some item → item.isWritable = true) ∧
    (Registry.IsDocumented (r.register name p.items).2 ↔
      name.isWritable = true ∧ ∀ s, name = .text s → s ≠ "" →
        ∀ item, firstMalformed? p.items = some item → item.isWritable = true) ∧
    (∀ k s n, p.ComesTo k s (.instruction (.pushInt (.int n))) → Word.fits n = false → Decimal.isWritable n = true →
      (session.run p).2.FaultsWith .arithmeticOverflow k (some .pushInt)) ∧
    ∀ n, firstMalformed? p.items = some (.instruction (.pushInt (.int n))) → Decimal.isWritable n = true →
      ∃ rejection, p.validate = .rejected rejection ∧ rejection.violation.kind = .operandOutOfRange := by
  rw [session.run_snd]
  refine ⟨outcome_isDocumented_iff p, validate_isDocumented_iff p, ?_, fun k s n => outcome_of_literal,
    fun n => validate_of_literal⟩
  simp only [Registry.register_isDocumented_iff, validate_isDocumented_iff]

/-- One literal that is too long to be written is enough to go beyond what is documented. -/
private theorem not_documented_of_literal (r : Registry) {name : String} (hname : name ≠ "") {n : Int}
    (hn : Decimal.isWritable n = false) :
    let items : List Item := [.instruction (.pushInt (.int n))]
    ¬ (Program.outcome ⟨name, items⟩).IsDocumented ∧ ¬ (Program.validate ⟨name, items⟩).IsDocumented ∧
      ¬ Registry.IsDocumented (r.register (.text name) items).2 := by
  intro items
  have hitem : (Item.instruction (.pushInt (.int n))).isWritable = false := (isWritable_pushInt n).trans hn
  have hfits : Word.fits n = false := by
    by_contra hfits
    rw [Word.isWritable_of_fits (by simpa using hfits)] at hn
    cases hn
  have hfirst : firstMalformed? items = some (.instruction (.pushInt (.int n))) := by
    simp [items, firstMalformed?, Item.isInstruction, Item.WellFormed, Instruction.WellFormed, Instruction.pushInt,
      Opcode.operandKind, hfits]
  have hvalidate : ¬ (Program.validate ⟨name, items⟩).IsDocumented := by
    intro h
    have := (validate_isDocumented_iff _).mp h _ hfirst
    rw [hitem] at this
    cases this
  refine ⟨fun h => ?_, hvalidate, fun h => ?_⟩
  · have := (outcome_isDocumented_iff _).mp h 0 .start _ ⟨rfl, rfl, rfl⟩
    rw [hitem] at this
    cases this
  · exact hvalidate (((Registry.register_isDocumented_iff _ _ _).mp h).2 name rfl hname)

/-- A literal of 4301 digits is no word, and neither a run nor the checker nor a registration says so. -/
theorem not_documented_long_literal :
    let items : List Item := [.instruction (.pushInt (.int Decimal.writingBound))]
    ¬ (Program.outcome ⟨"test", items⟩).IsDocumented ∧ ¬ (Program.validate ⟨"test", items⟩).IsDocumented ∧
      ¬ Registry.IsDocumented (Registry.default.register (.text "test") items).2 := by
  refine not_documented_of_literal Registry.default (by decide) ?_
  simp only [Decimal.isWritable, Int.natAbs_natCast, Nat.lt_irrefl, decide_false]

end StackMachine
