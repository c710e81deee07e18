import StackMachine.Proofs.Bounds

/-!
# Groups of digits

A program that pushes numerals and natural numbers only, and that does not subtract, holds nothing else on its stack.
Neither half of this could be shown without the other: joining values turns numbers into digits, and reading turns digits
into numbers (`exec_keepsDigits`). So such a program never comes to a text that cannot be read (`run_of_digits`).
-/

namespace StackMachine

/-- The value is a numeral, or an integer that is not negative. -/
def Value.IsDigital : Value → Prop
  | .int n => 0 ≤ n
  | .text s => Decimal.isNumeral s.toList = true

def DigitStack (stack : List Value) : Prop := ∀ v ∈ stack, v.IsDigital

/-- The item does not subtract; a text that it pushes is a numeral, and an integer is not negative. -/
def Item.isDigital : Item → Bool
  | .instruction ⟨.sub, _⟩ => false
  | .instruction ⟨.pushStr, .text s⟩ => Decimal.isNumeral s.toList
  | .instruction ⟨.pushInt, .int n⟩ => 0 ≤ n
  | _ => true

@[simp] theorem digitStack_cons {v : Value} {stack : List Value} :
    DigitStack (v :: stack) ↔ v.IsDigital ∧ DigitStack stack := by
  simp [DigitStack]

/-! ### One instruction -/

theorem Decimal.isNumeral_append {s t : List Char} (hs : isNumeral s = true) (ht : isNumeral t = true) :
    isNumeral (s ++ t) = true := by
  rw [isNumeral_iff] at hs ht ⊢
  refine ⟨by simp [hs.1], fun c hc => ?_⟩
  rcases List.mem_append.mp hc with hc | hc
  · exact hs.2 c hc
  · exact ht.2 c hc

theorem Value.IsDigital.isNumeral_toText {v : Value} (hv : v.IsDigital) : Decimal.isNumeral v.toText.toList = true := by
  cases v with
  | text s => exact hv
  | int n =>
    have hn : 0 ≤ n := hv
    rw [Value.toText, Decimal.toList_toString, if_pos hn]
    exact Decimal.isNumeral_toDigits n.toNat

/-- The values left behind are numerals and numbers that are not negative; a fault is not that of a text which cannot be
read. -/
def Effect.KeepsDigits : Effect → Prop
  | .ok stack => DigitStack stack
  | .error failure => failure.cause.kind ≠ .parse

section

variable {stack rest : List Value}

private theorem underflow_keepsDigits (op : Opcode) (needed : Nat) (stack : List Value) :
    (Effect.underflow op needed stack).KeepsDigits := by
  simp [Effect.underflow, Effect.KeepsDigits, Cause.kind]

private theorem pushWord_keepsDigits (op : Opcode) {n : Int} (hn : 0 ≤ n) (hr : DigitStack rest) :
    (Effect.pushWord op n rest).KeepsDigits := by
  unfold Effect.pushWord
  split
  · exact digitStack_cons.mpr ⟨hn, hr⟩
  · simp [Effect.KeepsDigits, Cause.kind]

private theorem divide_keepsDigits {a b : Int} (ha : 0 ≤ a) (hb : 0 ≤ b) (hr : DigitStack rest) :
    (Effect.divide a b rest).KeepsDigits := by
  unfold Effect.divide
  split
  · simp [Effect.KeepsDigits, Cause.kind]
  · exact pushWord_keepsDigits .div (Int.fdiv_nonneg ha hb) hr

private theorem parse_keepsDigits {text : String} (ht : Decimal.isNumeral text.toList = true) (hr : DigitStack rest) :
    (Effect.parse text rest).KeepsDigits := by
  rcases parse_cases text rest with ⟨-, -, h⟩ | ⟨-, -, cause, h, hkind, -⟩ | ⟨hn, -⟩
  · rw [h]
    exact digitStack_cons.mpr ⟨Int.natCast_nonneg _, hr⟩
  · rw [h]
    simp [Effect.KeepsDigits, hkind]
  · rw [ht] at hn
    cases hn

private theorem onIntegers_keepsDigits {op : Opcode} {f : Int → Int → List Value → Effect} (hs : DigitStack stack)
    (hf : ∀ a b rest, 0 ≤ a → 0 ≤ b → DigitStack rest → (f a b rest).KeepsDigits) :
    (Effect.onIntegers op f stack).KeepsDigits := by
  unfold Effect.onIntegers
  split
  · simp only [digitStack_cons] at hs
    obtain ⟨hb, ha, hr⟩ := hs
    exact hf _ _ _ ha hb hr
  · simp [Effect.KeepsDigits, Cause.kind]
  · simp [Effect.KeepsDigits, Cause.kind]
  · exact underflow_keepsDigits op 2 stack

end

theorem exec_keepsDigits {i : Instruction} (hi : (Item.instruction i).isDigital = true) {stack : List Value}
    (hs : DigitStack stack) : (i.exec stack).KeepsDigits := by
  obtain ⟨op, operand⟩ := i
  cases op with
  | sub => cases hi
  | halt => exact hs
  | pushInt =>
    cases hn : operand.integer? with
    | some n =>
      have hnonneg : 0 ≤ n := by
        rcases Literal.integer?_eq_some_iff.mp hn with rfl | ⟨op, -, rfl⟩
        · simpa [Item.isDigital] using hi
        · exact Int.natCast_nonneg _
      rw [Instruction.exec_pushInt_of_integer? hn]
      exact pushWord_keepsDigits .pushInt hnonneg hs
    | none =>
      rw [Instruction.exec_pushInt_of_none hn]
      simp [Effect.KeepsDigits, Cause.kind]
  | pushStr =>
    cases operand with
    | text s => exact digitStack_cons.mpr ⟨hi, hs⟩
    | null | bool | int | object => simp [Instruction.exec, Effect.KeepsDigits, Cause.kind]
  | add => exact onIntegers_keepsDigits hs fun a b rest ha hb hr => pushWord_keepsDigits .add (Int.add_nonneg ha hb) hr
  | mul => exact onIntegers_keepsDigits hs fun a b rest ha hb hr => pushWord_keepsDigits .mul (Int.mul_nonneg ha hb) hr
  | div => exact onIntegers_keepsDigits hs fun a b rest ha hb hr => divide_keepsDigits ha hb hr
  | pop =>
    rcases stack with _ | ⟨v, rest⟩
    · exact underflow_keepsDigits _ _ _
    · exact (digitStack_cons.mp hs).2
  | dup =>
    rcases stack with _ | ⟨v, rest⟩
    · exact underflow_keepsDigits _ _ _
    · exact digitStack_cons.mpr ⟨(digitStack_cons.mp hs).1, hs⟩
  | toInt =>
    rcases stack with _ | ⟨n | s, rest⟩
    · exact underflow_keepsDigits _ _ _
    · simp [Instruction.exec, Effect.KeepsDigits, Cause.kind]
    · obtain ⟨ht, hr⟩ := digitStack_cons.mp hs
      exact parse_keepsDigits ht hr
  | concat =>
    rcases stack with _ | ⟨right, _ | ⟨left, rest⟩⟩
    · exact underflow_keepsDigits _ _ _
    · exact underflow_keepsDigits _ _ _
    · -- the decimal form of a number joins the digits on either side of it
      simp only [digitStack_cons] at hs
      obtain ⟨hright, hleft, hr⟩ := hs
      refine digitStack_cons.mpr ⟨?_, hr⟩
      show Decimal.isNumeral (left.toText ++ right.toText).toList = true
      rw [String.toList_append]
      exact Decimal.isNumeral_append hleft.isNumeral_toText hright.isNumeral_toText
  | swap =>
    rcases stack with _ | ⟨b, _ | ⟨a, rest⟩⟩
    · exact underflow_keepsDigits _ _ _
    · exact underflow_keepsDigits _ _ _
    · simp only [digitStack_cons] at hs
      obtain ⟨hb, ha, hr⟩ := hs
      exact digitStack_cons.mpr ⟨ha, digitStack_cons.mpr ⟨hb, hr⟩⟩

/-! ### One step -/

namespace State

variable {s t : State} {item : Item} {f : Fault}

theorem step_moved_digitStack (hitem : item.isDigital = true) (hs : DigitStack s.stack) (h : s.step item = .moved t) :
    DigitStack t.stack := by
  obtain ⟨i, stack, rfl, -, he, rfl⟩ := step_moved h
  have hkeeps := exec_keepsDigits hitem hs
  rw [he] at hkeeps
  exact hkeeps

theorem step_faulted_digitStack (hs : DigitStack s.stack) (h : s.step item = .faulted f t) : DigitStack t.stack := by
  rcases step_faulted_cases h with ⟨-, rfl⟩ | ⟨-, stack, hsuffix, rfl⟩
  · exact hs
  · exact fun v hv => hs v (hsuffix.subset hv)

theorem step_faulted_ne_parse (hitem : item.isDigital = true) (hs : DigitStack s.stack) (h : s.step item = .faulted f t) :
    f.cause.kind ≠ .parse := by
  rcases wellFormed_or_rejected item with hwf | ⟨violation, op, hr⟩
  · rcases s.step_cases item with ⟨_, _, -, -, -, hstep⟩ | ⟨i, failure, rfl, -, he, hstep⟩ | ⟨_, _, _, hn, -⟩
    · rw [hstep] at h
      cases h
    · have hkeeps := exec_keepsDigits hitem hs
      rw [he] at hkeeps
      rw [hstep] at h
      injection h with hf
      exact hf ▸ hkeeps
    · exact absurd hwf hn
  · obtain ⟨cause, u, hstep, ⟨-, hkind⟩, -⟩ := hr.step s
    rw [hstep] at h
    injection h with hf
    rcases hkind with ⟨-, hkind⟩ | ⟨-, hkind⟩ <;> simp [← hf, hkind]

end State

/-! ### The whole run -/

namespace Program

variable {p : Program} {k : Nat} {s : State} {item : Item}

theorem ComesTo.mem_items (h : p.ComesTo k s item) : item ∈ p.items := List.mem_of_getElem? h.item

theorem digitStack_of_stateAfter (hp : ∀ item ∈ p.items, item.isDigital = true) (h : p.stateAfter k = some s) :
    DigitStack s.stack :=
  stateAfter_induction (P := fun _ s => DigitStack s.stack) (by simp [DigitStack, State.start])
    (fun _ _ _ _ hc hs hstep => State.step_moved_digitStack (hp _ hc.mem_items) hs hstep) h

/-- While a program runs that pushes numerals and natural numbers only and does not subtract, every text on the stack is a
numeral and every integer is not negative, also on the stack that a fault leaves. The fault is not that of a text which
cannot be read, and the value of a run that succeeds is not negative. -/
theorem run_of_digits (p : Program) (hp : ∀ item ∈ p.items, item.isDigital = true) :
    (∀ k s, p.stateAfter k = some s → DigitStack s.stack) ∧
    (∀ f s, p.outcome = .faulted f s → DigitStack s.stack ∧ f.report.kind ≠ .parse) ∧
    ∀ v s, p.outcome = .halted v s → DigitStack s.stack ∧ 0 ≤ v ∧ v ≤ Word.greatest := by
  refine ⟨fun k s => digitStack_of_stateAfter hp, fun f s h => ?_, fun v s h => ?_⟩
  · have hconcludes := p.concludes
    rw [h] at hconcludes
    cases hconcludes with
    | result hs _ hstage =>
      refine ⟨digitStack_of_stateAfter hp hs, fun hkind => ?_⟩
      have hparse : f.cause.kind = .parse := hkind
      cases hf : f.cause <;> simp [hf, Cause.kind, Cause.stage] at hparse hstage
    | fault hc hstep =>
      have hs := digitStack_of_stateAfter hp hc.state
      exact ⟨State.step_faulted_digitStack hs hstep, State.step_faulted_ne_parse (hp _ hc.mem_items) hs hstep⟩
  · have hconcludes := p.concludes
    rw [h] at hconcludes
    cases hconcludes with
    | value hs _ hstack =>
      have hdigits := digitStack_of_stateAfter hp hs
      have hword := wordStack_of_stateAfter hs
      have hv : Value.int v ∈ s.stack := by rw [hstack]; exact List.mem_singleton_self _
      exact ⟨hdigits, hdigits _ hv, (Word.fits_iff.mp (hword _ hv)).2⟩

/-- Digits are joined to a number and read, and the quotient is rounded down. -/
theorem run_of_digits_quotient :
    let p : Program := ⟨"quotient", [.pushStr (.text "420"), .pushInt (.int 69), .concat, .toInt, .pushInt (.int 7), .div,
      .halt].map .instruction⟩
    (∀ item ∈ p.items, item.isDigital = true) ∧ p.outcome = .halted 6009 ⟨7, 7, [.int 6009], 2, some 6⟩ ∧
      0 ≤ (6009 : Int) ∧ (6009 : Int) ≤ Word.greatest := by
  intro p
  have hp : ∀ item ∈ p.items, item.isDigital = true := by decide
  have houtcome : p.outcome = .halted 6009 ⟨7, 7, [.int 6009], 2, some 6⟩ := by decide
  exact ⟨hp, houtcome, ((run_of_digits p hp).2.2 6009 _ houtcome).2⟩

end Program

end StackMachine
