import Mathlib.Data.List.Basic
import StackMachine.Proofs.Numeral
import StackMachine.Proofs.WellFormed

/-!
# The effect of an instruction on the stack

The table of operations says how many values an operation takes and how many it gives back, and `Instruction.exec`
obeys it (`exec_cases`): with fewer values than it takes, an instruction underflows and leaves the stack alone; else it
replaces the values that it takes by as many as it gives, or fails because of one of them, and then they are gone. What
lies below is neither read nor changed (`exec_append`).

The integers on a stack are words. An instruction keeps that, and what it has to report can always be written out
(`exec_sound`).
-/

namespace StackMachine

/-- The kinds of fault that are due to the values on the stack, and not to their number or to the form of an
instruction. -/
def Report.Kind.valueFaults : List Report.Kind :=
  [.typeMismatch, .parse, .arithmeticOverflow, .divisionByZero]

/-! ### Too few values -/

private theorem onIntegers_of_length_lt {op : Opcode} {f : Int → Int → List Value → Effect} {stack : List Value}
    (h : stack.length < 2) : Effect.onIntegers op f stack = Effect.underflow op 2 stack := by
  rcases stack with _ | ⟨v, _ | ⟨w, rest⟩⟩
  · rfl
  · cases v <;> rfl
  · simp only [List.length_cons] at h; omega

/-- An instruction that takes more values than there are leaves the stack as it is. -/
theorem exec_of_length_lt {i : Instruction} {stack : List Value} (h : stack.length < i.opcode.pops) :
    i.exec stack = Effect.underflow i.opcode i.opcode.pops stack := by
  obtain ⟨op, operand⟩ := i
  cases op with
  | halt | pushInt | pushStr => exact absurd h (Nat.not_lt_zero _)
  | add | sub | mul | div => exact onIntegers_of_length_lt h
  | pop | toInt | dup =>
    obtain rfl : stack = [] := List.eq_nil_of_length_eq_zero (by simp only [Opcode.pops] at h; omega)
    rfl
  | concat | swap =>
    rcases stack with _ | ⟨v, _ | ⟨w, rest⟩⟩
    · rfl
    · rfl
    · simp only [Opcode.pops, List.length_cons] at h; omega

/-! ### What lies below -/

/-- The same effect on a taller stack, `below` being what lies under the values that the effect is about. -/
def Effect.above (below : List Value) : Effect → Effect
  | .ok stack => .ok (stack ++ below)
  | .error failure => .error ⟨failure.cause, failure.stack ++ below⟩

private theorem pushWord_append (op : Opcode) (n : Int) (rest below : List Value) :
    Effect.pushWord op n (rest ++ below) = (Effect.pushWord op n rest).above below := by
  unfold Effect.pushWord
  split <;> rfl

private theorem divide_append (a b : Int) (rest below : List Value) :
    Effect.divide a b (rest ++ below) = (Effect.divide a b rest).above below := by
  unfold Effect.divide
  split
  · rfl
  · exact pushWord_append ..

private theorem parse_append (text : String) (rest below : List Value) :
    Effect.parse text (rest ++ below) = (Effect.parse text rest).above below := by
  unfold Effect.parse
  split
  · dsimp only
    split
    · rfl
    · exact pushWord_append ..
  · rfl

private theorem onIntegers_append {op : Opcode} {f : Int → Int → List Value → Effect} {top : List Value}
    (h : 2 ≤ top.length) (below : List Value)
    (hf : ∀ a b rest, f a b (rest ++ below) = (f a b rest).above below) :
    Effect.onIntegers op f (top ++ below) = (Effect.onIntegers op f top).above below := by
  rcases top with _ | ⟨v, _ | ⟨w, rest⟩⟩
  · simp only [List.length_nil] at h; omega
  · simp only [List.length_cons, List.length_nil] at h; omega
  · cases v <;> cases w <;> first | rfl | exact hf ..

/-- An instruction reaches no deeper than the values that it takes. -/
theorem exec_append {i : Instruction} {top : List Value} (h : i.opcode.pops ≤ top.length) (below : List Value) :
    i.exec (top ++ below) = (i.exec top).above below := by
  obtain ⟨op, operand⟩ := i
  cases op with
  | halt => rfl
  | pushInt =>
    cases hn : operand.integer? with
    | some n =>
      rw [Instruction.exec_pushInt_of_integer? hn, Instruction.exec_pushInt_of_integer? hn]
      exact pushWord_append ..
    | none =>
      rw [Instruction.exec_pushInt_of_none hn, Instruction.exec_pushInt_of_none hn]
      rfl
  | pushStr => cases operand <;> rfl
  | add | sub | mul => exact onIntegers_append h below fun a b rest => pushWord_append ..
  | div => exact onIntegers_append h below fun a b rest => divide_append ..
  | pop | dup =>
    rcases top with _ | ⟨v, rest⟩
    · simp [Opcode.pops] at h
    · rfl
  | toInt =>
    rcases top with _ | ⟨_ | _, rest⟩
    · simp [Opcode.pops] at h
    · rfl
    · exact parse_append ..
  | concat | swap =>
    rcases top with _ | ⟨v, _ | ⟨w, rest⟩⟩
    · simp [Opcode.pops] at h
    · simp [Opcode.pops] at h
    · rfl

/-! ### The values taken and given -/

/-- The effect is `n` values, or a fault that is due to the values taken and leaves none of them. -/
def Effect.Yields (n : Nat) : Effect → Prop
  | .ok stack => stack.length = n
  | .error failure => failure.cause.kind ∈ Report.Kind.valueFaults ∧ failure.stack = []

private theorem pushWord_yields (op : Opcode) (n : Int) : (Effect.pushWord op n []).Yields 1 := by
  unfold Effect.pushWord
  split
  · rfl
  · exact ⟨by simp [Cause.kind, Report.Kind.valueFaults], rfl⟩

private theorem divide_yields (a b : Int) : (Effect.divide a b []).Yields 1 := by
  unfold Effect.divide
  split
  · exact ⟨by simp [Cause.kind, Report.Kind.valueFaults], rfl⟩
  · exact pushWord_yields ..

private theorem parse_yields (text : String) : (Effect.parse text []).Yields 1 := by
  rcases parse_cases text [] with ⟨-, -, h⟩ | ⟨-, -, cause, h, hk, -⟩ | ⟨-, h⟩ <;> rw [h]
  · rfl
  · exact ⟨by simp [hk, Report.Kind.valueFaults], rfl⟩
  · exact ⟨by simp [Cause.kind, Report.Kind.valueFaults], rfl⟩

private theorem onIntegers_yields {op : Opcode} {f : Int → Int → List Value → Effect} {top : List Value}
    (h : top.length = 2) (hf : ∀ a b, (f a b []).Yields 1) : (Effect.onIntegers op f top).Yields 1 := by
  obtain ⟨v, w, rfl⟩ := List.length_eq_two.mp h
  cases v <;> cases w
  case int.int => exact hf ..
  all_goals exact ⟨by simp [Cause.kind, Report.Kind.valueFaults], rfl⟩

/-- The effect of an instruction on exactly the values that it takes. -/
theorem exec_yields {i : Instruction} (hi : i.WellFormed) {top : List Value} (h : top.length = i.opcode.pops) :
    (i.exec top).Yields i.opcode.pushes := by
  rcases hi.cases with ⟨operand, n, hn, fits, rfl⟩ | ⟨s, rfl⟩ | ⟨hk, -⟩
  · obtain rfl : top = [] := List.eq_nil_of_length_eq_zero h
    rw [Instruction.exec_pushInt_of_fits hn fits]
    rfl
  · obtain rfl : top = [] := List.eq_nil_of_length_eq_zero h
    rfl
  · obtain ⟨op, operand⟩ := i
    cases op with
    | halt => exact h
    | pushInt | pushStr => cases hk
    | add | sub | mul => exact onIntegers_yields h fun a b => pushWord_yields ..
    | div => exact onIntegers_yields h divide_yields
    | pop | dup => obtain ⟨v, rfl⟩ := List.length_eq_one_iff.mp h; rfl
    | toInt =>
      obtain ⟨_ | s, rfl⟩ := List.length_eq_one_iff.mp h
      · exact ⟨by simp [Cause.kind, Report.Kind.valueFaults], rfl⟩
      · exact parse_yields s
    | concat | swap => obtain ⟨v, w, rfl⟩ := List.length_eq_two.mp h; rfl

/-- All that an instruction can do to a stack. -/
theorem exec_cases {i : Instruction} (hi : i.WellFormed) (stack : List Value) :
    (stack.length < i.opcode.pops ∧ i.exec stack = Effect.underflow i.opcode i.opcode.pops stack) ∨
    (i.opcode.pops ≤ stack.length ∧
      ∃ given, given.length = i.opcode.pushes ∧ i.exec stack = .ok (given ++ stack.drop i.opcode.pops)) ∨
    (i.opcode.pops ≤ stack.length ∧
      ∃ cause : Cause, cause.kind ∈ Report.Kind.valueFaults ∧
        i.exec stack = .error ⟨cause, stack.drop i.opcode.pops⟩) := by
  by_cases h : stack.length < i.opcode.pops
  · exact .inl ⟨h, exec_of_length_lt h⟩
  · -- the values taken decide what happens, and the others stay below
    right
    have hpops : i.opcode.pops ≤ stack.length := Nat.le_of_not_lt h
    have htop : (stack.take i.opcode.pops).length = i.opcode.pops := by simp [hpops]
    have hy := exec_yields hi htop
    have hframe := exec_append (Nat.le_of_eq htop.symm) (stack.drop i.opcode.pops)
    rw [List.take_append_drop] at hframe
    rw [hframe]
    cases he : i.exec (stack.take i.opcode.pops) with
    | ok given => rw [he] at hy; exact .inl ⟨hpops, given, hy, rfl⟩
    | error failure =>
      rw [he] at hy
      obtain ⟨cause, left⟩ := failure
      obtain ⟨hk, rfl⟩ := hy
      exact .inr ⟨hpops, cause, hk, rfl⟩

/-- A well-formed instruction that pushes an integer succeeds. -/
theorem exec_pushInt {i : Instruction} (hi : i.WellFormed) (h : i.opcode = .pushInt) (stack : List Value) :
    ∃ n, i.exec stack = .ok (.int n :: stack) := by
  rcases hi.cases with ⟨operand, n, hn, fits, rfl⟩ | ⟨s, rfl⟩ | ⟨hk, -⟩
  · exact ⟨n, Instruction.exec_pushInt_of_fits hn fits stack⟩
  · cases h
  · rw [h] at hk; cases hk

/-! ### Words on the stack -/

/-- An integer on the stack is a word. -/
def Value.IsWord : Value → Prop
  | .int n => Word.fits n = true
  | .text _ => True

/-- Every integer on the stack is a word. -/
def WordStack (stack : List Value) : Prop := ∀ v ∈ stack, v.IsWord

theorem Value.IsWord.isWritable {v : Value} (h : v.IsWord) : v.isWritable = true := by
  cases v with
  | int n => exact Word.isWritable_of_fits h
  | text s => rfl

@[simp] theorem wordStack_nil : WordStack [] := by simp [WordStack]

@[simp] theorem wordStack_cons {v : Value} {stack : List Value} :
    WordStack (v :: stack) ↔ v.IsWord ∧ WordStack stack := by
  simp [WordStack]

/-- The integers left behind are words, and a fault can be reported. -/
def Effect.Sound : Effect → Prop
  | .ok stack => WordStack stack
  | .error failure => WordStack failure.stack ∧ failure.cause.isWritable = true

private theorem pushWord_sound {op : Opcode} {n : Int} {rest : List Value} (hn : n.natAbs < 10 ^ 40)
    (hr : WordStack rest) : (Effect.pushWord op n rest).Sound := by
  unfold Effect.pushWord
  split
  · exact wordStack_cons.mpr ⟨‹_›, hr⟩
  · exact ⟨hr, isWritable_of_natAbs_lt hn⟩

private theorem natAbs_le_of_fits {n : Int} (h : Word.fits n = true) : n.natAbs ≤ 2 ^ 63 := by
  have := Word.fits_iff.mp h
  simp only [Word.least, Word.greatest] at this
  omega

private theorem natAbs_mul_lt {a b : Int} (ha : a.natAbs ≤ 2 ^ 63) (hb : b.natAbs ≤ 2 ^ 63) :
    (a * b).natAbs < 10 ^ 40 := by
  rw [Int.natAbs_mul]
  calc a.natAbs * b.natAbs ≤ 2 ^ 63 * 2 ^ 63 := Nat.mul_le_mul ha hb
    _ < 10 ^ 40 := by decide

private theorem divide_sound {a b : Int} {rest : List Value} (ha : Word.fits a = true) (hr : WordStack rest) :
    (Effect.divide a b rest).Sound := by
  unfold Effect.divide
  split
  · exact ⟨hr, Word.isWritable_of_fits ha⟩
  · have hle := natAbs_le_of_fits ha
    have hdiv := Int.natAbs_fdiv_le_natAbs a b
    exact pushWord_sound (by omega) hr

private theorem parse_sound {text : String} {rest : List Value} (hr : WordStack rest) :
    (Effect.parse text rest).Sound := by
  rcases parse_cases text rest with ⟨-, hfits, h⟩ | ⟨-, -, cause, h, -, hw⟩ | ⟨-, h⟩ <;> rw [h]
  · exact wordStack_cons.mpr ⟨hfits, hr⟩
  · exact ⟨hr, hw⟩
  · exact ⟨hr, rfl⟩

private theorem onIntegers_sound {op : Opcode} {f : Int → Int → List Value → Effect} {stack : List Value}
    (hs : WordStack stack)
    (hf : ∀ a b rest, Word.fits a = true → Word.fits b = true → WordStack rest → (f a b rest).Sound) :
    (Effect.onIntegers op f stack).Sound := by
  rcases stack with _ | ⟨b, _ | ⟨a, rest⟩⟩
  · exact ⟨hs, rfl⟩
  · cases b <;> exact ⟨hs, rfl⟩
  · simp only [wordStack_cons] at hs
    cases b <;> cases a
    case int.int => exact hf _ _ _ hs.2.1 hs.1 hs.2.2
    all_goals exact ⟨hs.2.2, rfl⟩

/-- An instruction keeps the integers on the stack words, and its fault can be reported. -/
theorem exec_sound {i : Instruction} (hi : i.WellFormed) {stack : List Value} (hs : WordStack stack) :
    (i.exec stack).Sound := by
  rcases hi.cases with ⟨operand, n, hn, fits, rfl⟩ | ⟨s, rfl⟩ | ⟨hk, -⟩
  · rw [Instruction.exec_pushInt_of_fits hn fits]
    exact wordStack_cons.mpr ⟨fits, hs⟩
  · exact wordStack_cons.mpr ⟨trivial, hs⟩
  · obtain ⟨op, operand⟩ := i
    cases op with
    | halt => exact hs
    | pushInt | pushStr => cases hk
    | add | sub =>
      refine onIntegers_sound hs fun a b rest ha hb hr => pushWord_sound ?_ hr
      have := natAbs_le_of_fits ha
      have := natAbs_le_of_fits hb
      omega
    | mul =>
      -- the product of two words is no word, but still has no more than forty digits
      refine onIntegers_sound hs fun a b rest ha hb hr => pushWord_sound ?_ hr
      exact natAbs_mul_lt (natAbs_le_of_fits ha) (natAbs_le_of_fits hb)
    | div => exact onIntegers_sound hs fun a b rest ha _ hr => divide_sound ha hr
    | pop =>
      rcases stack with _ | ⟨v, rest⟩
      · exact ⟨hs, rfl⟩
      · exact (wordStack_cons.mp hs).2
    | dup =>
      rcases stack with _ | ⟨v, rest⟩
      · exact ⟨hs, rfl⟩
      · exact wordStack_cons.mpr ⟨(wordStack_cons.mp hs).1, hs⟩
    | toInt =>
      rcases stack with _ | ⟨n | s, rest⟩
      · exact ⟨hs, rfl⟩
      · exact ⟨(wordStack_cons.mp hs).2, Word.isWritable_of_fits (wordStack_cons.mp hs).1⟩
      · exact parse_sound (wordStack_cons.mp hs).2
    | concat =>
      rcases stack with _ | ⟨v, _ | ⟨w, rest⟩⟩
      · exact ⟨hs, rfl⟩
      · exact ⟨hs, rfl⟩
      · simp only [wordStack_cons] at hs
        exact wordStack_cons.mpr ⟨trivial, hs.2.2⟩
    | swap =>
      rcases stack with _ | ⟨v, _ | ⟨w, rest⟩⟩
      · exact ⟨hs, rfl⟩
      · exact ⟨hs, rfl⟩
      · simp only [wordStack_cons] at hs
        exact wordStack_cons.mpr ⟨hs.2.1, wordStack_cons.mpr ⟨hs.1, hs.2.2⟩⟩

end StackMachine
