import Mathlib.Algebra.Ring.Int.Defs
import Mathlib.Logic.ExistsUnique
import StackMachine.Proofs.Reading

/-!
# Arithmetic on words

An arithmetic instruction that a run comes to pushes the exact result if that is a word, and overflows if it is none; a
division by zero has no result. The quotient is rounded down, so its remainder lies between zero and the divisor
(`BinaryOp.Exact`), and the only quotient of two words that is no word is that of the least one by minus one
(`fits_fdiv_iff`). A text among the operands is noticed first, and of two texts the deeper one is to blame
(`arithmetic_exact`).

Every stack of words can lie on the machine (`exists_comesTo_iff`), so what holds of runs holds of all such stacks.
-/

namespace StackMachine

/-! ### Exact results -/

namespace BinaryOp

/-- The exact result of an operation on two integers. -/
inductive Exact (a b : Int) : BinaryOp → Int → Prop
  | add : Exact a b .add (a + b)
  | sub : Exact a b .sub (a - b)
  | mul : Exact a b .mul (a * b)
  | divByPositive {q : Int} (hb : 0 < b) (lower : 0 ≤ a - q * b) (upper : a - q * b < b) : Exact a b .div q
  | divByNegative {q : Int} (hb : b < 0) (lower : b < a - q * b) (upper : a - q * b ≤ 0) : Exact a b .div q

variable {a b n : Int} {op : BinaryOp}

private theorem exact_div_iff : Exact a b .div n ↔ b ≠ 0 ∧ n = Int.fdiv a b := by
  constructor
  · intro h
    cases h with
    | divByPositive hb lower upper =>
      have hsum : a - n * b + b * n = a := by rw [Int.mul_comm b n]; omega
      have hunique := (Int.fdiv_fmod_unique hb).mpr ⟨hsum, lower, upper⟩
      exact ⟨by omega, hunique.1.symm⟩
    | divByNegative hb lower upper =>
      have hsum : a - n * b + b * n = a := by rw [Int.mul_comm b n]; omega
      have hunique := (Int.fdiv_fmod_unique' hb).mpr ⟨hsum, lower, upper⟩
      exact ⟨by omega, hunique.1.symm⟩
  · rintro ⟨hb, rfl⟩
    have hmod : a - Int.fdiv a b * b = Int.fmod a b := by
      have := Int.fmod_add_mul_fdiv a b
      rw [Int.mul_comm] at this
      omega
    rcases Int.lt_or_gt_of_ne hb with hneg | hpos
    · obtain ⟨-, lower, upper⟩ := (Int.fdiv_fmod_unique' (a := a) hneg).mp ⟨rfl, rfl⟩
      exact .divByNegative hneg (hmod ▸ lower) (hmod ▸ upper)
    · obtain ⟨-, lower, upper⟩ := (Int.fdiv_fmod_unique (a := a) hpos).mp ⟨rfl, rfl⟩
      exact .divByPositive hpos (hmod ▸ lower) (hmod ▸ upper)

/-- On integers an operation has no result because it divides by zero, or it has one exact result, which has to be a
word. -/
private theorem apply_int_cases (hop : op ≠ .concat) (a b : Int) :
    ((op = .div ∧ b = 0) ∧ (∀ m, ¬ Exact a b op m) ∧ op.apply (.int a) (.int b) = .error .divisionByZero) ∨
    (¬ (op = .div ∧ b = 0) ∧
      ∃ n, (∀ m, Exact a b op m ↔ m = n) ∧ op.apply (.int a) (.int b) = wordResult n) := by
  cases op with
  | concat => exact absurd rfl hop
  | add | sub | mul =>
    refine .inr ⟨by simp, _, fun m => ⟨?_, ?_⟩, rfl⟩
    · intro h
      cases h
      rfl
    · rintro rfl
      constructor
  | div =>
    by_cases hb : b = 0
    · have hnone : ∀ m, ¬ Exact a b .div m := fun m hm => (exact_div_iff.mp hm).1 hb
      exact .inl ⟨⟨rfl, hb⟩, hnone, if_pos hb⟩
    · have hone : ∀ m, Exact a b .div m ↔ m = Int.fdiv a b := by
        intro m
        rw [exact_div_iff]
        exact and_iff_right hb
      exact .inr ⟨fun h => hb h.2, _, hone, if_neg hb⟩

theorem existsUnique_exact (hop : op ≠ .concat) (h : ¬ (op = .div ∧ b = 0)) : ∃! n, Exact a b op n := by
  rcases apply_int_cases hop a b with ⟨hzero, -⟩ | ⟨-, n, hn, -⟩
  · exact absurd hzero h
  · exact ⟨n, (hn n).mpr rfl, fun m hm => (hn m).mp hm⟩

theorem apply_int_eq_ok_iff (hop : op ≠ .concat) :
    op.apply (.int a) (.int b) = .ok (.int n) ↔ Exact a b op n ∧ Word.fits n = true := by
  rcases apply_int_cases hop a b with ⟨-, hnone, h⟩ | ⟨-, m, hm, h⟩ <;> rw [h]
  · exact iff_of_false (by simp) fun hn => hnone n hn.1
  · rw [hm, wordResult]
    by_cases hfits : Word.fits m = true
    · rw [if_pos hfits]
      constructor
      · intro h
        cases h
        exact ⟨rfl, hfits⟩
      · rintro ⟨rfl, -⟩
        rfl
    · rw [if_neg hfits]
      refine iff_of_false (by simp) ?_
      rintro ⟨rfl, hn⟩
      exact hfits hn

theorem apply_int_eq_overflow_iff (hop : op ≠ .concat) :
    op.apply (.int a) (.int b) = .error .arithmeticOverflow ↔ ∃ n, Exact a b op n ∧ ¬ Word.fits n = true := by
  rcases apply_int_cases hop a b with ⟨-, hnone, h⟩ | ⟨-, m, hm, h⟩ <;> rw [h]
  · exact iff_of_false (by simp) fun ⟨n, hn, _⟩ => hnone n hn
  · rw [wordResult]
    by_cases hfits : Word.fits m = true
    · rw [if_pos hfits]
      refine iff_of_false (by simp) ?_
      rintro ⟨n, hn, hno⟩
      obtain rfl := (hm n).mp hn
      exact hno hfits
    · rw [if_neg hfits]
      exact iff_of_true rfl ⟨m, (hm m).mpr rfl, hfits⟩

theorem apply_int_eq_divisionByZero_iff (hop : op ≠ .concat) :
    op.apply (.int a) (.int b) = .error .divisionByZero ↔ op = .div ∧ b = 0 := by
  rcases apply_int_cases hop a b with ⟨hzero, -, h⟩ | ⟨hnonzero, m, -, h⟩ <;> rw [h]
  · exact iff_of_true rfl hzero
  · refine iff_of_false ?_ hnonzero
    unfold wordResult
    split <;> simp

end BinaryOp

theorem Word.fits_iff_pow {n : Int} : Word.fits n = true ↔ -2 ^ 63 ≤ n ∧ n < 2 ^ 63 := by
  rw [fits_iff, least, greatest]
  omega

/-- Two words have a word as their quotient, unless the least word is divided by minus one. -/
theorem fits_fdiv_iff {a b : Int} (ha : Word.fits a = true) (hb : Word.fits b = true) (hzero : b ≠ 0) :
    ¬ Word.fits (Int.fdiv a b) = true ↔ a = -2 ^ 63 ∧ b = -1 := by
  rw [Word.fits_iff_pow] at ha hb ⊢
  constructor
  · intro h
    have hle := Int.natAbs_fdiv_le_natAbs a b
    -- a quotient is not greater than its dividend, so it is too great by one only
    have hquotient : Int.fdiv a b = 2 ^ 63 := by omega
    have hexact := BinaryOp.exact_div_iff.mpr ⟨hzero, hquotient.symm⟩
    cases hexact with
    | divByPositive hpos lower upper => omega
    | divByNegative hneg lower upper => omega
  · rintro ⟨rfl, rfl⟩
    decide

/-! ### Texts among the operands -/

/-- Of two values, the text to blame: the deeper one, if both are texts. -/
inductive Blamed : Value → Value → String → Prop
  | deeper (text : String) (top : Value) : Blamed (.text text) top text
  | top (a : Int) (text : String) : Blamed (.int a) (.text text) text

private theorem typed_text (text : String) : Cause.typed (.text text) = Text.quote text ++ " (text)" := by
  show Text.quote text ++ " (" ++ "text" ++ ")" = _
  rw [String.append_assoc, String.append_assoc]
  rfl

private theorem exec_of_blamed {op : BinaryOp} (hop : op ≠ .concat) {v w : Value} {text : String}
    (h : Blamed v w text) (below : List Value) :
    op.instruction.exec (w :: v :: below) = .error ⟨.textOperand op.instruction.opcode text, below⟩ := by
  cases h with
  | deeper text top =>
    cases op with
    | concat => exact absurd rfl hop
    | add | sub | mul | div => cases w <;> rfl
  | top a text =>
    cases op with
    | concat => exact absurd rfl hop
    | add | sub | mul | div => rfl

/-! ### Stacks of words -/

/-- The instruction that pushes a value. -/
def Value.push : Value → Instruction
  | .int n => .pushInt (.int n)
  | .text s => .pushStr (.text s)

private theorem exec_push {v : Value} (hv : v.IsWord) (stack : List Value) :
    v.push.WellFormed ∧ v.push.opcode ≠ .halt ∧ v.push.exec stack = .ok (v :: stack) := by
  cases v with
  | int n =>
    have hn : Word.fits n = true := hv
    exact ⟨hn, by simp [Value.push, Instruction.pushInt], if_pos hn⟩
  | text s => exact ⟨trivial, by simp [Value.push, Instruction.pushStr], rfl⟩

/-- The values of a stack can be pushed one after the other, the deepest one first. -/
private theorem exists_stateAfter_of_wordStack {stack : List Value} (h : WordStack stack) (rest : List Item) :
    ∃ s, (Program.mk "stack" ((stack.reverse.map fun v => .instruction v.push) ++ rest)).stateAfter stack.length =
      some s ∧ s.haltIndex = none ∧ s.stack = stack := by
  induction stack generalizing rest with
  | nil => exact ⟨.start, rfl, rfl, rfl⟩
  | cons v below ih =>
    obtain ⟨hv, hbelow⟩ := wordStack_cons.mp h
    obtain ⟨s, hs, hhalt, hstack⟩ := ih hbelow (.instruction v.push :: rest)
    obtain ⟨hi, hop, he⟩ := exec_push hv s.stack
    have hitems : ((v :: below).reverse.map fun v => Item.instruction v.push) ++ rest =
        (below.reverse.map fun v => .instruction v.push) ++ .instruction v.push :: rest := by simp
    have hitem : ((below.reverse.map fun v => Item.instruction v.push) ++
        .instruction v.push :: rest)[below.length]? = some (.instruction v.push) := by
      rw [List.getElem?_append_right (by simp)]
      simp
    rw [hitems]
    refine ⟨s.complete v.push.opcode (v :: s.stack), ?_, ?_, by rw [State.complete_stack, hstack]⟩
    · exact Program.stateAfter_succ_eq_some_iff.mpr
        ⟨s, _, ⟨hs, hhalt, hitem⟩, State.step_of_exec_ok hi he⟩
    · rw [State.complete_haltIndex, if_neg hop, hhalt]

/-- The stacks on which a run can come to an item are those on which all integers are words. -/
theorem exists_comesTo_iff {item : Item} {stack : List Value} :
    (∃ (p : Program) (k : Nat) (s : State), p.ComesTo k s item ∧ s.stack = stack) ↔ WordStack stack := by
  constructor
  · rintro ⟨p, k, s, hc, rfl⟩
    exact Program.wordStack_of_stateAfter hc.state
  · intro h
    obtain ⟨s, hs, hhalt, hstack⟩ := exists_stateAfter_of_wordStack h [item]
    refine ⟨_, _, s, ⟨hs, hhalt, ?_⟩, hstack⟩
    rw [List.getElem?_append_right (by simp)]
    simp

/-! ### In a run -/

section

variable {p : Program} {k : Nat} {s : State} {op : BinaryOp}

private theorem operand_instruction (op : BinaryOp) :
    op.instruction.opcode.operandKind = .none → op.instruction.operand = .null := by
  intro _
  cases op <;> rfl

private theorem isWritable_instruction (op : BinaryOp) : op.instruction.isWritable = true := by
  cases op <;> rfl

variable (hc : p.ComesTo k s (.instruction op.instruction))
include hc

private theorem leaves_iff_apply {a b v : Value} {below : List Value} (hs : s.stack = b :: a :: below) :
    (∃ t, p.stateAfter (k + 1) = some t ∧ t.stack = v :: below) ↔ op.apply a b = .ok v := by
  rw [hc.leaves_iff (operand_instruction op), hs]
  exact (exec_realizes_apply op a b below).eq_ok_iff

private theorem faultsWith_iff_apply {a b : Value} {below : List Value} (hs : s.stack = b :: a :: below)
    {kind : Report.Kind} :
    p.outcome.FaultsWith kind k (some op.instruction.opcode) ↔ op.apply a b = .error kind := by
  rw [hc.faultsWith_iff (operand_instruction op) op.instruction_ne_halt (isWritable_instruction op), hs]
  exact (exec_realizes_apply op a b below).fails_iff

private theorem faulted_of_blamed (hop : op ≠ .concat) {v w : Value} {below : List Value}
    (hs : s.stack = w :: v :: below) {text : String} (h : Blamed v w text) :
    ∃ f t, p.outcome = .faulted f t ∧ f.index = k ∧ f.opcode = some op.instruction.opcode ∧
      f.report.kind = .typeMismatch ∧ f.report.received = some (Text.quote text ++ " (text)") := by
  have he := exec_of_blamed hop h below
  rw [← hs] at he
  obtain ⟨ho, hk⟩ := (hc.failed_iff (operand_instruction op) op.instruction_ne_halt).mpr
    ⟨isWritable_instruction op, _, he, rfl, rfl⟩
  exact ⟨_, _, ho, hk, rfl, rfl, congrArg some (typed_text text)⟩

end

/-- An arithmetic instruction that a run comes to, with two integers on top of the stack, pushes their exact result if
it is a word, and overflows if it is none. There is one exact result, unless zero is the divisor; then the instruction
faults for that. A division overflows only if it divides the least word by minus one. If a text is among the two
operands, then the instruction faults because of it whatever the other one is, and reports the deeper text. The stacks
on which runs come to the instruction are all stacks of words. -/
theorem arithmetic_exact (op : BinaryOp) (hop : op ≠ .concat) :
    (∀ stack, (∃ (p : Program) (k : Nat) (s : State),
      p.ComesTo k s (.instruction op.instruction) ∧ s.stack = stack) ↔ WordStack stack) ∧
    ∀ (p : Program) (k : Nat) (s : State) (below : List Value), p.ComesTo k s (.instruction op.instruction) →
      (∀ a b : Int, s.stack = .int b :: .int a :: below →
        (∀ n, (∃ t, p.stateAfter (k + 1) = some t ∧ t.stack = .int n :: below) ↔
          BinaryOp.Exact a b op n ∧ -2 ^ 63 ≤ n ∧ n < 2 ^ 63) ∧
        (p.outcome.FaultsWith .arithmeticOverflow k (some op.instruction.opcode) ↔
          ∃ n, BinaryOp.Exact a b op n ∧ ¬ (-2 ^ 63 ≤ n ∧ n < 2 ^ 63)) ∧
        (p.outcome.FaultsWith .divisionByZero k (some op.instruction.opcode) ↔ op = .div ∧ b = 0) ∧
        (¬ (op = .div ∧ b = 0) → ∃! n, BinaryOp.Exact a b op n) ∧
        (op = .div → (p.outcome.FaultsWith .arithmeticOverflow k (some op.instruction.opcode) ↔
          a = -2 ^ 63 ∧ b = -1))) ∧
      (∀ v w text, s.stack = w :: v :: below → Blamed v w text →
        ∃ f t, p.outcome = .faulted f t ∧ f.index = k ∧ f.opcode = some op.instruction.opcode ∧
          f.report.kind = .typeMismatch ∧ f.report.received = some (Text.quote text ++ " (text)")) := by
  refine ⟨fun stack => exists_comesTo_iff, fun p k s below hc => ⟨fun a b hs => ?_, fun v w text hs h => ?_⟩⟩
  · have hoverflow : p.outcome.FaultsWith .arithmeticOverflow k (some op.instruction.opcode) ↔
        ∃ n, BinaryOp.Exact a b op n ∧ ¬ Word.fits n = true := by
      rw [faultsWith_iff_apply hc hs, BinaryOp.apply_int_eq_overflow_iff hop]
    refine ⟨fun n => ?_, ?_, ?_, BinaryOp.existsUnique_exact hop, ?_⟩
    · rw [leaves_iff_apply hc hs, BinaryOp.apply_int_eq_ok_iff hop, Word.fits_iff_pow]
    · simp only [hoverflow, Word.fits_iff_pow]
    · rw [faultsWith_iff_apply hc hs, BinaryOp.apply_int_eq_divisionByZero_iff hop]
    · rintro rfl
      have hwords := Program.wordStack_of_stateAfter hc.state
      rw [hs, wordStack_cons, wordStack_cons] at hwords
      obtain ⟨hb, ha, -⟩ := hwords
      rw [hoverflow]
      constructor
      · rintro ⟨n, hn, hfits⟩
        obtain ⟨hzero, rfl⟩ := BinaryOp.exact_div_iff.mp hn
        exact (fits_fdiv_iff ha hb hzero).mp hfits
      · rintro ⟨rfl, rfl⟩
        have hzero : (-1 : Int) ≠ 0 := by decide
        exact ⟨_, BinaryOp.exact_div_iff.mpr ⟨hzero, rfl⟩, (fits_fdiv_iff ha hb hzero).mpr ⟨rfl, rfl⟩⟩
  · exact faulted_of_blamed hc hop hs h

/-- The least word has no word as its opposite. -/
theorem arithmetic_exact_least :
    let p : Program := ⟨"opposite", [.pushInt (.int (-2 ^ 63)), .pushInt (.int (-1)), .div].map .instruction⟩
    let s : State := ⟨2, 2, [.int (-1), .int (-2 ^ 63)], 2, none⟩
    BinaryOp.div ≠ .concat ∧ p.ComesTo 2 s (.instruction .div) ∧
      p.outcome.FaultsWith .arithmeticOverflow 2 (some .div) ∧
      ¬ ∃ t, p.stateAfter 3 = some t ∧ t.stack = [.int (2 ^ 63)] := by
  intro p s
  have hc : p.ComesTo 2 s (.instruction BinaryOp.div.instruction) := ⟨by decide, rfl, rfl⟩
  obtain ⟨hpushed, -, -, -, hoverflow⟩ :=
    ((arithmetic_exact .div (by decide)).2 p 2 s [] hc).1 (-2 ^ 63) (-1) rfl
  have hop : BinaryOp.div.instruction.opcode = .div := rfl
  rw [hop] at hoverflow
  refine ⟨by decide, hc, ?_, ?_⟩
  · rw [hoverflow rfl]
    exact ⟨rfl, rfl⟩
  · rw [hpushed (2 ^ 63)]
    rintro ⟨-, -, hlt⟩
    exact absurd hlt (by decide)

end StackMachine
