import StackMachine.Proofs.Replacement

/-!
# Shuffling the stack

Some blocks of instructions do to a stack what a shorter block does: exchanging two equal values, or two summands, is
for nothing, and so is to put a value on the stack and to take it off again (`Shuffle`). Two blocks that do the same to
every stack can be interchanged between any items (`outcome_of_interchangeable`): where they are run through, the rest
of the program finds the same stack, and where they fail, they fail alike. So none of the shuffles changes what a
program comes to (`outcome_shuffle`).
-/

namespace StackMachine

/-! ### The same end -/

/-- The outcomes are the same value, or failures of the same kind. -/
inductive Outcome.Agrees : Outcome → Outcome → Prop
  | halted (v : Int) (s t : State) : Agrees (.halted v s) (.halted v t)
  | faulted {f g : Fault} {s t : State} (kind : f.report.kind = g.report.kind) : Agrees (.faulted f s) (.faulted g t)
  | unwritable : Agrees .unwritable .unwritable

/-- Failures are of the same kind, and if the one can be reported, so can the other. -/
def Cause.Agrees (c d : Cause) : Prop :=
  c.kind = d.kind ∧ c.isWritable = d.isWritable

/-- The effects leave the same stack, or are failures that agree. -/
inductive Effect.Agrees : Effect → Effect → Prop
  | ok (stack : List Value) : Agrees (.ok stack) (.ok stack)
  | error {f g : Failure} (cause : f.cause.Agrees g.cause) : Agrees (.error f) (.error g)

theorem Effect.agrees_refl (e : Effect) : e.Agrees e := by
  cases e with
  | ok stack => exact .ok stack
  | error failure => exact .error ⟨rfl, rfl⟩

theorem Effect.agrees_ok_iff {stack stack' : List Value} :
    Effect.Agrees (.ok stack) (.ok stack') ↔ stack = stack' := by
  constructor
  · intro h
    cases h with
    | ok => rfl
  · rintro rfl
    exact .ok stack

theorem Outcome.agrees_refl (o : Outcome) : o.Agrees o := by
  cases o with
  | halted v s => exact .halted v s s
  | faulted f s => exact .faulted rfl
  | unwritable => exact .unwritable

theorem Outcome.Alike.agrees {place : Nat → Nat → Prop} {o o' : Outcome} (h : o.Alike place o') : o.Agrees o' := by
  cases h with
  | halted v s t => exact .halted v s t
  | faulted report => exact .faulted (by rw [report])
  | unwritable => exact .unwritable

private theorem ofFault_agrees {f g : Fault} (h : f.cause.Agrees g.cause) (s t : State) :
    (Outcome.ofFault f s).Agrees (Outcome.ofFault g t) := by
  obtain ⟨hkind, hwritable⟩ := h
  unfold Outcome.ofFault
  rw [hwritable]
  split
  · exact .faulted hkind
  · exact .unwritable

/-! ### Blocks -/

/-- What a block of instructions makes of a stack, one instruction after the other. -/
def execAll : List Instruction → List Value → Effect
  | [], stack => .ok stack
  | i :: rest, stack =>
    match i.exec stack with
    | .ok stack' => execAll rest stack'
    | .error failure => .error failure

/-- The instructions are well-formed, and none of them is `HALT`. -/
def Straight (block : List Instruction) : Prop :=
  ∀ i ∈ block, i.WellFormed ∧ i.opcode ≠ .halt

instance (block : List Instruction) : Decidable (Straight block) :=
  inferInstanceAs (Decidable (∀ i ∈ block, i.WellFormed ∧ i.opcode ≠ .halt))

/-- A walk over a block leaves what the block makes of the stack, or fails as the block does. -/
private theorem walk_block {block : List Instruction} (hblock : Straight block) {s : State} (hs : s.haltIndex = none) :
    (∃ t, execAll block s.stack = .ok t.stack ∧ (s.walk (block.map .instruction)).2 = .stopped t ∧
      t.haltIndex = none) ∨
    ∃ failure f t, execAll block s.stack = .error failure ∧ (s.walk (block.map .instruction)).2 = .faulted f t ∧
      f.cause = failure.cause := by
  induction block generalizing s with
  | nil => exact .inl ⟨s, rfl, rfl, hs⟩
  | cons i rest ih =>
    obtain ⟨⟨hi, hop⟩, hrest⟩ := List.forall_mem_cons.mp hblock
    rw [List.map_cons, execAll]
    cases he : i.exec s.stack with
    | error failure =>
      rw [State.walk_cons_faulted (State.step_of_exec_error hi he)]
      exact .inr ⟨failure, _, _, rfl, rfl, rfl⟩
    | ok stack =>
      have hnext : (s.complete i.opcode stack).haltIndex = none := by
        rw [State.complete_haltIndex, if_neg hop, hs]
      rw [State.walk_cons_moved (State.step_of_exec_ok hi he) hnext]
      exact ih hrest hnext

/-- The blocks do the same to every stack of at least `depth` values. -/
structure Interchangeable (depth : Nat) (x y : List Instruction) : Prop where
  straight : Straight x ∧ Straight y
  effect : ∀ stack : List Value, depth ≤ stack.length → (execAll x stack).Agrees (execAll y stack)

/-- From a state with enough values on its stack, a program goes on alike with either block. -/
private theorem walk_interchange {depth : Nat} {x y : List Instruction} (h : Interchangeable depth x y) {t : State}
    (ht : t.haltIndex = none) (hdepth : depth ≤ t.stack.length) (r : List Item) (name : String) :
    ((t.walk (x.map .instruction ++ r)).2.outcome name).Agrees
      ((t.walk (y.map .instruction ++ r)).2.outcome name) := by
  obtain ⟨⟨hx, hy⟩, heffect⟩ := h
  have hagree := heffect t.stack hdepth
  rcases walk_block hx ht with ⟨u, hex, hu, huhalt⟩ | ⟨failure, f, u, hex, hu, hf⟩ <;>
    rcases walk_block hy ht with ⟨w, hey, hw, hwhalt⟩ | ⟨failure', g, w, hey, hw, hg⟩ <;>
    rw [hex, hey] at hagree
  · -- both are run through, and the rest finds the same stack at another position
    rw [State.walk_append_of_open hu huhalt, State.walk_append_of_open hw hwhalt]
    have halike : u.Alike (fun _ _ => True) w :=
      ⟨Effect.agrees_ok_iff.mp hagree, trivial, by rw [huhalt, hwhalt]; exact .none⟩
    exact (Ending.outcome_alike (State.walk_alike (fun _ _ _ => trivial) halike r) name).agrees
  · cases hagree
  · cases hagree
  · -- both fail, and the rest is not run
    have hxr : t.walk (x.map .instruction ++ r) = t.walk (x.map .instruction) :=
      State.walk_append_of_closed ht (fun v hv => by rw [hu] at hv; cases hv) r
    have hyr : t.walk (y.map .instruction ++ r) = t.walk (y.map .instruction) :=
      State.walk_append_of_closed ht (fun v hv => by rw [hw] at hv; cases hv) r
    rw [hxr, hyr, hu, hw]
    cases hagree with
    | error hcause =>
      rw [← hf, ← hg] at hcause
      exact ofFault_agrees hcause u w

/-- Blocks that do the same to every stack of a certain depth can be interchanged wherever the items in front leave as
many values, if they are run through at all. -/
theorem outcome_of_interchangeable {depth : Nat} {x y : List Instruction} (h : Interchangeable depth x y)
    {a : List Item} (ha : ∀ t, (State.start.walk a).2 = .stopped t → t.haltIndex = none → depth ≤ t.stack.length)
    (r : List Item) (name : String) :
    Outcome.Agrees (Program.outcome ⟨name, a ++ x.map .instruction ++ r⟩)
      (Program.outcome ⟨name, a ++ y.map .instruction ++ r⟩) := by
  simp only [Program.outcome, Program.run, List.append_assoc]
  by_cases hopen : ∃ t, (State.start.walk a).2 = .stopped t ∧ t.haltIndex = none
  · obtain ⟨t, hstop, ht⟩ := hopen
    rw [State.walk_append_of_open hstop ht, State.walk_append_of_open hstop ht]
    exact walk_interchange h ht (ha t hstop ht) r name
  · -- the run is over before it comes to either block
    have hclosed : ∀ t, (State.start.walk a).2 = .stopped t → t.haltIndex ≠ none :=
      fun t ht hn => hopen ⟨t, ht, hn⟩
    rw [State.walk_append_of_closed rfl hclosed, State.walk_append_of_closed rfl hclosed]
    exact Outcome.agrees_refl _

/-! ### Shuffles -/

/-- The first block can be replaced by the second one, on stacks of at least as many values as the number says. -/
inductive Shuffle : Nat → List Instruction → List Instruction → Prop
  | dupSwap : Shuffle 0 [.dup, .swap] [.dup]
  | swapAdd : Shuffle 0 [.swap, .add] [.add]
  | swapMul : Shuffle 0 [.swap, .mul] [.mul]
  | pushIntPop (n : Int) (fits : Word.fits n = true) : Shuffle 0 [.pushInt (.int n), .pop] []
  | pushStrPop (text : String) : Shuffle 0 [.pushStr (.text text), .pop] []
  | swapSwap : Shuffle 2 [.swap, .swap] []
  | dupPop : Shuffle 1 [.dup, .pop] []

/-- An operation on two integers in either order fails alike on two values that are not both integers. -/
private theorem onIntegers_swap {op : Opcode} {f : Int → Int → List Value → Effect}
    (hf : ∀ a b rest, f a b rest = f b a rest) (v w : Value) (rest : List Value) :
    (Effect.onIntegers op f (v :: w :: rest)).Agrees (Effect.onIntegers op f (w :: v :: rest)) := by
  cases v with
  | int m =>
    cases w with
    | int n =>
      show (f n m rest).Agrees (f m n rest)
      rw [hf]
      exact Effect.agrees_refl _
    | text t => exact .error ⟨rfl, rfl⟩
  | text s =>
    cases w with
    | int n => exact .error ⟨rfl, rfl⟩
    | text t => exact .error ⟨rfl, rfl⟩

private theorem execAll_singleton (i : Instruction) (stack : List Value) : execAll [i] stack = i.exec stack := by
  rw [execAll]
  cases i.exec stack <;> rfl

/-- Exchanging the operands is for nothing if the operation does not mind their order. -/
private theorem swap_agrees {i : Instruction} {f : Int → Int → List Value → Effect}
    (hi : ∀ stack, i.exec stack = Effect.onIntegers i.opcode f stack) (hf : ∀ a b rest, f a b rest = f b a rest)
    (stack : List Value) : (execAll [.swap, i] stack).Agrees (execAll [i] stack) := by
  rw [execAll_singleton]
  rcases stack with _ | ⟨v, _ | ⟨w, rest⟩⟩
  · rw [hi]
    exact .error ⟨rfl, rfl⟩
  · rw [hi]
    cases v <;> exact .error ⟨rfl, rfl⟩
  · show (execAll [i] (w :: v :: rest)).Agrees _
    rw [execAll_singleton, hi, hi]
    exact onIntegers_swap hf w v rest

theorem Shuffle.interchangeable {depth : Nat} {x y : List Instruction} (h : Shuffle depth x y) :
    Interchangeable depth x y := by
  cases h with
  | dupSwap =>
    refine ⟨by decide, fun stack _ => ?_⟩
    cases stack with
    | nil => exact .error ⟨rfl, rfl⟩
    | cons v rest => exact .ok _
  | swapAdd =>
    refine ⟨by decide, fun stack _ => ?_⟩
    exact swap_agrees (fun _ => rfl) (fun a b rest => by rw [Int.add_comm]) stack
  | swapMul =>
    refine ⟨by decide, fun stack _ => ?_⟩
    exact swap_agrees (fun _ => rfl) (fun a b rest => by rw [Int.mul_comm]) stack
  | pushIntPop n fits =>
    have hpush : (Instruction.pushInt (.int n)).WellFormed := fits
    have hpop : Straight [.pop] := by decide
    refine ⟨⟨List.forall_mem_cons.mpr ⟨⟨hpush, by simp [Instruction.pushInt]⟩, hpop⟩, by decide⟩, fun stack _ => ?_⟩
    have hexec : (Instruction.pushInt (.int n)).exec stack = .ok (.int n :: stack) := if_pos fits
    have hall : execAll [.pushInt (.int n), .pop] stack = .ok stack := by
      unfold execAll
      rw [hexec]
      rfl
    rw [hall]
    exact .ok stack
  | pushStrPop text =>
    have hpop : Straight [.pop] := by decide
    refine ⟨⟨List.forall_mem_cons.mpr ⟨⟨trivial, by simp [Instruction.pushStr]⟩, hpop⟩, by decide⟩, fun stack _ => ?_⟩
    exact .ok stack
  | swapSwap =>
    refine ⟨by decide, fun stack hdepth => ?_⟩
    rcases stack with _ | ⟨v, _ | ⟨w, rest⟩⟩
    · exact absurd hdepth (by decide)
    · exact absurd hdepth (by simp)
    · exact .ok _
  | dupPop =>
    refine ⟨by decide, fun stack hdepth => ?_⟩
    cases stack with
    | nil => exact absurd hdepth (by decide)
    | cons v rest => exact .ok _

/-- A shuffle between any items leaves the program with the same value, or with a failure of the same kind, provided
that the items in front of it leave enough values if they are run through. For the shuffles that are good for every
stack the proviso is void. -/
theorem outcome_shuffle (depth : Nat) (x y : List Instruction) (h : Shuffle depth x y) (a r : List Item)
    (ha : ∀ t, (State.start.walk a).2 = .stopped t → t.haltIndex = none → depth ≤ t.stack.length) (name : String) :
    Outcome.Agrees (Program.outcome ⟨name, a ++ x.map .instruction ++ r⟩)
      (Program.outcome ⟨name, a ++ y.map .instruction ++ r⟩) :=
  outcome_of_interchangeable h.interchangeable ha r name

/-- Two exchanges in front of a text and an integer, and behind them a quotient of the joined digits by zero. -/
theorem outcome_shuffle_digits :
    let a : List Item := [.pushStr (.text "4"), .pushInt (.int 2)].map .instruction
    let r : List Item := [.concat, .toInt, .pushInt (.int 0), .div].map .instruction ++ [.stray .null]
    (∀ t, (State.start.walk a).2 = .stopped t → t.haltIndex = none → 2 ≤ t.stack.length) ∧
      Outcome.Agrees (Program.outcome ⟨"quotient", a ++ [.swap, .swap].map .instruction ++ r⟩)
        (Program.outcome ⟨"quotient", a ++ [].map .instruction ++ r⟩) := by
  intro a r
  have hwalk : (State.start.walk a).2 = .stopped ⟨2, 2, [.int 2, .text "4"], 2, none⟩ := by decide
  have ha : ∀ t, (State.start.walk a).2 = .stopped t → t.haltIndex = none → 2 ≤ t.stack.length := by
    intro t ht _
    rw [hwalk] at ht
    injection ht with ht
    rw [← ht]
    decide
  exact ⟨ha, outcome_shuffle 2 [.swap, .swap] [] .swapSwap a r ha "quotient"⟩

end StackMachine
