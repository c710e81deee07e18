import StackMachine.Proofs.Agreement

/-!
# Expressions

Expressions are built from integers and texts by the operations of the machine that leave one value. They have a value,
or a first node that is to blame for having none (`Expr.eval`), and they can be written as code in postfix order
(`Expr.code`). The checker accepts the code, with the depth that the shape of the expression demands, and the machine
computes the value, or faults at the node to blame (`run_code`). The step from a node to the whole is `walk_code`, for
any stack below and any items behind.
-/

namespace StackMachine

open Validation

/-- The operations on two values. -/
inductive BinaryOp where
  | add
  | sub
  | mul
  | div
  | concat
deriving DecidableEq

/-- Expressions over integers and texts; integers are words. -/
inductive Expr where
  | int (n : Int) (fits : Word.fits n = true)
  | text (s : String)
  | binary (op : BinaryOp) (left right : Expr)
  | toInt (operand : Expr)
deriving DecidableEq

/-- Why an expression has no value: the kind of failure, and the node that fails, given by its position in postfix order
and its operation. -/
structure Blame where
  kind : Report.Kind
  position : Nat
  opcode : Opcode
deriving DecidableEq

/-- An integer result has to be a word. -/
def wordResult (n : Int) : Except Report.Kind Value :=
  if Word.fits n then .ok (.int n) else .error .arithmeticOverflow

namespace BinaryOp

/-- The instruction of the operation. -/
def instruction : BinaryOp → Instruction
  | add => .add
  | sub => .sub
  | mul => .mul
  | div => .div
  | concat => .concat

@[simp] theorem pops_instruction (op : BinaryOp) : op.instruction.opcode.pops = 2 := by cases op <;> rfl

@[simp] theorem pushes_instruction (op : BinaryOp) : op.instruction.opcode.pushes = 1 := by cases op <;> rfl

theorem instruction_ne_halt (op : BinaryOp) : op.instruction.opcode ≠ .halt := by cases op <;> decide

theorem wellFormed_instruction (op : BinaryOp) : op.instruction.WellFormed := by cases op <;> trivial

/-- The result of the operation. -/
def apply : BinaryOp → Value → Value → Except Report.Kind Value
  | concat, a, b => .ok (.text (a.toText ++ b.toText))
  | add, .int a, .int b => wordResult (a + b)
  | sub, .int a, .int b => wordResult (a - b)
  | mul, .int a, .int b => wordResult (a * b)
  | div, .int a, .int b => if b = 0 then .error .divisionByZero else wordResult (Int.fdiv a b)
  | _, _, _ => .error .typeMismatch

end BinaryOp

/-- The number that a text denotes. -/
def readResult : Value → Except Report.Kind Value
  | .text s => if Decimal.isNumeral s.toList then wordResult (Decimal.value s.toList) else .error .parse
  | .int _ => .error .typeMismatch

namespace Expr

/-- The number of nodes. -/
def size : Expr → Nat
  | int .. | text _ => 1
  | binary _ left right => left.size + right.size + 1
  | toInt operand => operand.size + 1

/-- The number of values that have to be kept at a time, if operands are evaluated from left to right. -/
def depth : Expr → Nat
  | int .. | text _ => 1
  | binary _ left right => max left.depth (1 + right.depth)
  | toInt operand => operand.depth

/-- The value, operands being evaluated from left to right. -/
def eval : Expr → Except Blame Value
  | int n _ => .ok (.int n)
  | text s => .ok (.text s)
  | binary op left right =>
    match left.eval with
    | .error blame => .error blame
    | .ok a =>
      match right.eval with
      | .error blame => .error { blame with position := left.size + blame.position }
      | .ok b => (op.apply a b).mapError (⟨·, left.size + right.size, op.instruction.opcode⟩)
  | toInt operand =>
    match operand.eval with
    | .error blame => .error blame
    | .ok a => (readResult a).mapError (⟨·, operand.size, .toInt⟩)

/-- The nodes in postfix order. -/
def code : Expr → List Instruction
  | int n _ => [.pushInt (.int n)]
  | text s => [.pushStr (.text s)]
  | binary op left right => left.code ++ right.code ++ [op.instruction]
  | toInt operand => operand.code ++ [.toInt]

/-- The code as a program, with or without `HALT` at its end. -/
def program (e : Expr) (name : String) (explicit : Bool) : Program :=
  ⟨name, (e.code ++ if explicit then [Instruction.halt] else []).map .instruction⟩

theorem length_code (e : Expr) : e.code.length = e.size := by
  induction e with
  | int | text => rfl
  | binary op left right ihl ihr => simp [code, size, ihl, ihr, Nat.add_assoc]
  | toInt operand ih => simp [code, size, ih]

theorem one_le_depth (e : Expr) : 1 ≤ e.depth := by
  induction e with
  | int | text => exact Nat.le_refl 1
  | binary op left right ihl ihr => simp only [depth]; omega
  | toInt operand ih => exact ih

theorem wellFormed_code (e : Expr) : ∀ i ∈ e.code, i.WellFormed := by
  induction e with
  | int n fits => exact List.forall_mem_singleton.mpr fits
  | text s => exact List.forall_mem_singleton.mpr trivial
  | binary op left right ihl ihr =>
    simp only [code, List.mem_append, List.mem_singleton]
    rintro i ((hi | hi) | rfl)
    · exact ihl i hi
    · exact ihr i hi
    · exact op.wellFormed_instruction
  | toInt operand ih =>
    simp only [code, List.mem_append, List.mem_singleton]
    rintro i (hi | rfl)
    · exact ih i hi
    · trivial

/-! ### The checker on code -/

/-- The third pass over code: one more value on the stack, at the cost of the depth of the expression. -/
theorem followDepth_code (e : Expr) (index depth maxDepth : Nat) (rest : List Instruction) :
    followDepth index depth maxDepth (e.code ++ rest) =
      followDepth (index + e.size) (depth + 1) (max maxDepth (depth + e.depth)) rest := by
  induction e generalizing index depth maxDepth rest with
  | int | text => rfl
  | binary op left right ihl ihr =>
    have hr := right.one_le_depth
    rw [code, List.append_assoc, List.append_assoc, ihl, ihr, List.singleton_append,
      followDepth_cons op.instruction_ne_halt (by simp)]
    simp only [BinaryOp.pops_instruction, BinaryOp.pushes_instruction, size, Expr.depth]
    congr 1 <;> omega
  | toInt operand ih =>
    have hd := operand.one_le_depth
    have hpops : Instruction.toInt.opcode.pops ≤ depth + 1 := Nat.le_add_left 1 depth
    rw [code, List.append_assoc, ih, List.singleton_append, followDepth_cons (by decide) hpops]
    simp only [Instruction.toInt, Opcode.pops, Opcode.pushes, size, Expr.depth]
    congr 1
    omega

end Expr

/-! ### One node -/

/-- The effect puts the result on the stack `below`, or fails with the kind of failure of the result. -/
def Effect.Realizes (below : List Value) : Except Report.Kind Value → Effect → Prop
  | .ok v, effect => effect = .ok (v :: below)
  | .error kind, effect => ∃ cause : Cause, cause.kind = kind ∧ effect = .error ⟨cause, below⟩

private theorem pushWord_realizes (op : Opcode) (n : Int) (below : List Value) :
    Effect.Realizes below (wordResult n) (Effect.pushWord op n below) := by
  unfold wordResult Effect.pushWord
  split
  · rfl
  · exact ⟨_, rfl, rfl⟩

private theorem divide_realizes (a b : Int) (below : List Value) :
    Effect.Realizes below (if b = 0 then .error .divisionByZero else wordResult (Int.fdiv a b))
      (Effect.divide a b below) := by
  unfold Effect.divide
  split
  · exact ⟨_, rfl, rfl⟩
  · exact pushWord_realizes ..

theorem exec_realizes_apply (op : BinaryOp) (a b : Value) (below : List Value) :
    Effect.Realizes below (op.apply a b) (op.instruction.exec (b :: a :: below)) := by
  cases op with
  | concat => rfl
  | add | sub | mul =>
    cases a <;> cases b
    case int.int => exact pushWord_realizes ..
    all_goals exact ⟨_, rfl, rfl⟩
  | div =>
    cases a <;> cases b
    case int.int => exact divide_realizes ..
    all_goals exact ⟨_, rfl, rfl⟩

theorem exec_realizes_read (a : Value) (below : List Value) :
    Effect.Realizes below (readResult a) (Instruction.toInt.exec (a :: below)) := by
  cases a with
  | int n => exact ⟨_, rfl, rfl⟩
  | text s =>
    show Effect.Realizes below
      (if Decimal.isNumeral s.toList then wordResult (Decimal.value s.toList) else .error .parse) (Effect.parse s below)
    unfold wordResult
    rcases parse_cases s below with ⟨hn, hfits, h⟩ | ⟨hn, hfits, cause, h, hk, -⟩ | ⟨hn, h⟩
    · rw [h, if_pos hn, if_pos hfits]
      rfl
    · rw [h, if_pos hn, if_neg (by simp [hfits])]
      exact ⟨cause, hk, rfl⟩
    · rw [h, if_neg (by simp [hn])]
      exact ⟨_, rfl, rfl⟩

private theorem walk_node_ok {s : State} {below : List Value} {i : Instruction} {v : Value} (hi : i.WellFormed)
    (hop : i.opcode ≠ .halt) (hs : s.haltIndex = none) (h : Effect.Realizes below (.ok v) (i.exec s.stack))
    (rest : List Item) :
    (s.walk (.instruction i :: rest)).2 = ((s.complete i.opcode (v :: below)).walk rest).2 := by
  have hnext : (s.complete i.opcode (v :: below)).haltIndex = none := by
    simp [State.complete_haltIndex, hop, hs]
  rw [State.walk_cons_moved (State.step_of_exec_ok hi h) hnext]

private theorem walk_node_error {s : State} {below : List Value} {i : Instruction} {kind : Report.Kind}
    (hi : i.WellFormed) (h : Effect.Realizes below (.error kind) (i.exec s.stack)) (rest : List Item) :
    ∃ cause t, cause.kind = kind ∧
      (s.walk (.instruction i :: rest)).2 = .faulted ⟨cause, s.pc, some i.opcode⟩ t := by
  obtain ⟨cause, hkind, he⟩ := h
  exact ⟨cause, _, hkind, by rw [State.walk_cons_faulted (State.step_of_exec_error hi he)]⟩

/-! ### The machine on code -/

/-- The state after the code of an expression of value `v`. -/
def State.evaluated (s : State) (e : Expr) (v : Value) : State :=
  { s with
    pc := s.pc + e.size
    steps := s.steps + e.size
    stack := v :: s.stack
    maxDepth := max s.maxDepth (s.stack.length + e.depth) }

private theorem complete_evaluated_binary (s : State) (op : BinaryOp) (left right : Expr)
    (a b v : Value) :
    ((s.evaluated left a).evaluated right b).complete op.instruction.opcode (v :: s.stack) =
      s.evaluated (.binary op left right) v := by
  have hr := right.one_le_depth
  have hop := op.instruction_ne_halt
  simp only [State.complete, State.advance, State.evaluated, Expr.size, Expr.depth, List.length_cons, hop, ↓reduceIte,
    State.mk.injEq, true_and, and_true]
  omega

private theorem complete_evaluated_toInt (s : State) (operand : Expr) (a v : Value) :
    (s.evaluated operand a).complete .toInt (v :: s.stack) = s.evaluated (.toInt operand) v := by
  have hd := operand.one_le_depth
  simp only [State.complete, State.advance, State.evaluated, Expr.size, Expr.depth, List.length_cons,
    State.mk.injEq, true_and]
  refine ⟨by omega, by omega, by omega, by simp⟩

/-- The code of an expression puts its value on whatever stack there is, and the walk goes on behind it; or the walk
ends at the node to blame. -/
theorem walk_code (e : Expr) {s : State} (hs : s.haltIndex = none) (rest : List Item) :
    match e.eval with
    | .ok v => (s.walk (e.code.map .instruction ++ rest)).2 = ((s.evaluated e v).walk rest).2
    | .error blame => ∃ cause t, cause.kind = blame.kind ∧
        (s.walk (e.code.map .instruction ++ rest)).2 =
          .faulted ⟨cause, s.pc + blame.position, some blame.opcode⟩ t := by
  induction e generalizing s rest with
  | int n fits =>
    have hi : (Instruction.pushInt (.int n)).WellFormed := fits
    have hpush : Effect.Realizes s.stack (.ok (.int n)) ((Instruction.pushInt (.int n)).exec s.stack) :=
      Instruction.exec_pushInt_of_fits rfl fits s.stack
    exact walk_node_ok hi (by simp [Instruction.pushInt]) hs hpush rest
  | text t =>
    have hi : (Instruction.pushStr (.text t)).WellFormed := trivial
    have hpush : Effect.Realizes s.stack (.ok (.text t)) ((Instruction.pushStr (.text t)).exec s.stack) := rfl
    exact walk_node_ok hi (by simp [Instruction.pushStr]) hs hpush rest
  | binary op left right ihl ihr =>
    -- the right operand is walked on top of the value of the left one
    have hcode : (Expr.binary op left right).code.map .instruction ++ rest = left.code.map .instruction ++
        (right.code.map .instruction ++ (.instruction op.instruction :: rest)) := by
      simp [Expr.code]
    rw [hcode]
    have hl := ihl hs (right.code.map .instruction ++ (.instruction op.instruction :: rest))
    simp only [Expr.eval]
    cases ha : left.eval with
    | error blame =>
      rw [ha] at hl
      exact hl
    | ok a =>
      rw [ha] at hl
      have hr := ihr (s := s.evaluated left a) hs (.instruction op.instruction :: rest)
      cases hb : right.eval with
      | error blame =>
        rw [hb] at hr
        dsimp only at hl hr ⊢
        rw [hl]
        obtain ⟨cause, t, hkind, hwalk⟩ := hr
        exact ⟨cause, t, hkind, by rw [hwalk, State.evaluated, Nat.add_assoc]⟩
      | ok b =>
        rw [hb] at hr
        dsimp only at hl hr ⊢
        rw [hl, hr]
        have hop := exec_realizes_apply op a b s.stack
        cases hv : op.apply a b with
        | error kind =>
          rw [hv] at hop
          obtain ⟨cause, t, hkind, hwalk⟩ := walk_node_error (s := (s.evaluated left a).evaluated right b)
            op.wellFormed_instruction hop rest
          exact ⟨cause, t, hkind, by rw [hwalk]; simp only [State.evaluated, Nat.add_assoc]⟩
        | ok v =>
          rw [hv] at hop
          have hwalk := walk_node_ok (s := (s.evaluated left a).evaluated right b) op.wellFormed_instruction
            op.instruction_ne_halt hs hop rest
          rw [hwalk, complete_evaluated_binary]
          rfl
  | toInt operand ih =>
    have hcode : (Expr.toInt operand).code.map .instruction ++ rest =
        operand.code.map .instruction ++ (.instruction .toInt :: rest) := by
      simp [Expr.code]
    rw [hcode]
    have hx := ih hs (.instruction .toInt :: rest)
    simp only [Expr.eval]
    cases ha : operand.eval with
    | error blame =>
      rw [ha] at hx
      exact hx
    | ok a =>
      rw [ha] at hx
      dsimp only at hx ⊢
      rw [hx]
      have hop := exec_realizes_read a s.stack
      cases hv : readResult a with
      | error kind =>
        rw [hv] at hop
        exact walk_node_error (s := s.evaluated operand a) (i := .toInt) trivial hop rest
      | ok v =>
        rw [hv] at hop
        have hwalk := walk_node_ok (s := s.evaluated operand a) (i := .toInt) trivial (by decide) hs hop rest
        rw [hwalk]
        exact congrArg (fun u => (State.walk u rest).2) (complete_evaluated_toInt s operand a v)

/-! ### Whole programs -/

namespace Expr

private theorem items_program (e : Expr) (name : String) (explicit : Bool) :
    (e.program name explicit).items =
      e.code.map .instruction ++ if explicit then [Item.instruction .halt] else [] := by
  cases explicit <;> simp [program]

private theorem wellFormed_program (e : Expr) (name : String) (explicit : Bool) :
    ∀ item ∈ (e.program name explicit).items, item.WellFormed := by
  apply wellFormed_map.mpr
  intro i hi
  rcases List.mem_append.mp hi with hi | hi
  · exact e.wellFormed_code i hi
  · cases explicit with
    | false => cases hi
    | true =>
      obtain rfl := List.mem_singleton.mp hi
      trivial

private theorem validate_program (e : Expr) (name : String) (explicit : Bool) :
    (e.program name explicit).validate = .accepted ⟨if explicit then some e.size else none, e.depth⟩ := by
  have hne : (e.code ++ if explicit then [Instruction.halt] else []) ≠ [] := by
    intro h
    have hsize := e.length_code
    rw [(List.append_eq_nil_iff.mp h).1] at hsize
    cases e <;> simp [size] at hsize
  rw [validate_eq_accepted_iff, check_of_wellFormed rfl hne (wellFormed_map.mp (e.wellFormed_program name explicit)),
    followDepth_code]
  cases explicit <;> simp [followDepth, Instruction.halt]

/-- A program of an expression of value `v` stops with `v` alone on the stack. -/
theorem stopped_of_eval {e : Expr} {v : Value} (h : e.eval = .ok v) (name : String) (explicit : Bool) :
    ∃ t, (State.start.walk (e.program name explicit).items).2 = .stopped t ∧ t.stack = [v] ∧
      t.steps = (e.program name explicit).size ∧ t.maxDepth = e.depth ∧ t.haltIndex.getD t.pc = e.size ∧
      (t.haltIndex.map fun _ => Opcode.halt) = if explicit then some .halt else none := by
  have hwalk := walk_code e (s := State.start) rfl (if explicit then [Item.instruction .halt] else [])
  rw [h] at hwalk
  dsimp only at hwalk
  have hd := e.one_le_depth
  rw [items_program, hwalk, Program.size, items_program, List.length_append, List.length_map, length_code]
  cases explicit with
  | false => exact ⟨_, rfl, rfl, Nat.zero_add _, by simp [State.evaluated, State.start], Nat.zero_add _, rfl⟩
  | true =>
    have hstep : (State.start.evaluated e v).step (.instruction .halt) =
        .moved ((State.start.evaluated e v).complete .halt [v]) := rfl
    rw [if_pos rfl, State.walk_cons_halted hstep rfl]
    refine ⟨_, rfl, rfl, ?_, ?_, Nat.zero_add _, rfl⟩
    · simp [State.evaluated, State.start]
    · simp only [State.complete_maxDepth, State.evaluated, State.start, List.length_cons, List.length_nil]
      omega

section

variable {e : Expr}

private theorem outcome_of_eval_int {n : Int} (h : e.eval = .ok (.int n)) (name : String) (explicit : Bool) :
    ∃ s, (e.program name explicit).outcome = .halted n s ∧
      s.steps = (e.program name explicit).size ∧ s.maxDepth = e.depth := by
  obtain ⟨t, hstop, hstack, hsteps, hdepth, -⟩ := stopped_of_eval h name explicit
  exact ⟨t, by rw [outcome_of_stopped hstop]; simp [State.outcome, hstack], hsteps, hdepth⟩

private theorem outcome_of_eval_text {text : String} (h : e.eval = .ok (.text text)) (name : String) (explicit : Bool) :
    (e.program name explicit).outcome.FaultsWith .typeMismatch e.size (if explicit then some .halt else none) := by
  obtain ⟨t, hstop, hstack, -, -, hindex, hopcode⟩ := stopped_of_eval h name explicit
  rw [outcome_of_stopped hstop, outcome_of_text hstack]
  exact ⟨rfl, hindex, hopcode⟩

private theorem outcome_of_eval_error {blame : Blame} (h : e.eval = .error blame) (name : String) (explicit : Bool) :
    (e.program name explicit).outcome.FaultsWith blame.kind blame.position (some blame.opcode) := by
  have hwalk := walk_code e (s := State.start) rfl (if explicit then [Item.instruction .halt] else [])
  rw [h] at hwalk
  obtain ⟨cause, t, hkind, hwalk⟩ := hwalk
  rw [← e.items_program name] at hwalk
  rw [outcome_of_faulted (e.wellFormed_program name explicit) hwalk]
  exact ⟨hkind, Nat.zero_add _, rfl⟩

/-- A program of an expression succeeds exactly if the value is an integer. -/
theorem outcome_eq_halted_iff (name : String) (explicit : Bool) {n : Int} :
    (∃ s, (e.program name explicit).outcome = .halted n s) ↔ e.eval = .ok (.int n) := by
  constructor
  · rintro ⟨s, hs⟩
    cases he : e.eval with
    | error blame => exact absurd hs ((outcome_of_eval_error he name explicit).ne_halted n s)
    | ok v =>
      cases v with
      | text text => exact absurd hs ((outcome_of_eval_text he name explicit).ne_halted n s)
      | int m =>
        obtain ⟨t, ht, -⟩ := outcome_of_eval_int he name explicit
        rw [hs] at ht
        injection ht with hn
        rw [hn]
  · intro h
    obtain ⟨s, hs, -⟩ := outcome_of_eval_int h name explicit
    exact ⟨s, hs⟩

/-- A program of an expression faults at a node exactly if the node is to blame. -/
theorem outcome_faultsWith_iff (name : String) (explicit : Bool) {kind : Report.Kind} {position : Nat} {op : Opcode}
    (hop : op ≠ .halt) :
    (e.program name explicit).outcome.FaultsWith kind position (some op) ↔ e.eval = .error ⟨kind, position, op⟩ := by
  constructor
  · intro h
    cases he : e.eval with
    | error blame =>
      obtain ⟨rfl, rfl, hsome⟩ := h.unique (outcome_of_eval_error he name explicit)
      rw [Option.some.inj hsome]
    | ok v =>
      cases v with
      | text text =>
        -- the fault behind the last node names no operation but `HALT`
        obtain ⟨-, -, hsome⟩ := h.unique (outcome_of_eval_text he name explicit)
        cases explicit with
        | false => cases hsome
        | true => exact absurd (Option.some.inj hsome) hop
      | int m =>
        obtain ⟨t, ht, -⟩ := outcome_of_eval_int he name explicit
        exact absurd ht (h.ne_halted m t)
  · intro h
    exact outcome_of_eval_error h name explicit

end

end Expr

/-- The checker accepts the code of an expression. The machine computes the value of the expression, in as many steps as
there are items and on a stack as deep as the expression; a text as the last value is a fault at the end, and an
expression without a value is a fault at the first node to blame. -/
theorem run_code (e : Expr) (name : String) (explicit : Bool) :
    (e.program name explicit).validate = .accepted ⟨if explicit then some e.size else none, e.depth⟩ ∧
    match e.eval with
    | .ok (.int v) => ∃ s, (e.program name explicit).outcome = .halted v s ∧
        s.steps = (e.program name explicit).size ∧ s.maxDepth = e.depth
    | .ok (.text _) => (e.program name explicit).outcome.FaultsWith .typeMismatch e.size
        (if explicit then some .halt else none)
    | .error blame => (e.program name explicit).outcome.FaultsWith blame.kind blame.position (some blame.opcode) := by
  refine ⟨e.validate_program name explicit, ?_⟩
  cases he : e.eval with
  | error blame => exact Expr.outcome_of_eval_error he name explicit
  | ok v =>
    cases v with
    | int n => exact Expr.outcome_of_eval_int he name explicit
    | text text => exact Expr.outcome_of_eval_text he name explicit

-- of two texts that are no numerals, the left one is to blame
example :
    let e : Expr := .binary .add (.toInt (.text "6a")) (.toInt (.text "b"))
    e.eval = .error ⟨.parse, 1, .toInt⟩ ∧ (e.program "sum" true).outcome.FaultsWith .parse 1 (some .toInt) :=
  ⟨by decide, rfl, rfl, rfl⟩

end StackMachine
