import StackMachine.Proofs.Disassembly

/-!
# What a shown stack tells

A shown value tells by itself where it ends: a text at its closing mark, an integer in front of the first character that
is neither a digit nor a sign (`describe_append_inj`). So no comma and no bracket in a text can be taken for one that
separates two values or closes the stack, and stacks that are shown alike are the same (`describeStack_eq_iff`).
-/

namespace StackMachine

open Text

/-! ### One value -/

private def isNumeric (c : Char) : Bool := c.isDigit || c == '-'

private theorem isNumeric_of_mem_toString {n : Int} {c : Char} (hc : c ∈ (toString n).toList) : isNumeric c = true := by
  rcases Decimal.eq_minus_or_isDigit hc with rfl | hdigit
  · rfl
  · simp [isNumeric, hdigit]

/-- An integer ends where the next character is no part of a number. -/
private theorem toString_append_inj {m n : Int} {rest rest' : List Char} (hrest : rest.takeWhile isNumeric = [])
    (hrest' : rest'.takeWhile isNumeric = [])
    (h : (toString m).toList ++ rest = (toString n).toList ++ rest') : m = n ∧ rest = rest' := by
  have htake : ∀ (k : Int) (left : List Char), left.takeWhile isNumeric = [] →
      ((toString k).toList ++ left).takeWhile isNumeric = (toString k).toList := by
    intro k left hleft
    rw [List.takeWhile_append_of_pos fun c hc => isNumeric_of_mem_toString hc, hleft, List.append_nil]
  have hnumber : (toString m).toList = (toString n).toList := by
    rw [← htake m rest hrest, h, htake n rest' hrest']
  have hmn : m = n := Int.repr_inj.mp (String.toList_inj.mp hnumber)
  rw [hnumber] at h
  exact ⟨hmn, List.append_cancel_left h⟩

private theorem describe_int_eq_cons (n : Int) :
    ∃ c rest, (Value.int n).describe.toList = c :: rest ∧ isNumeric c = true := by
  cases hn : (toString n).toList with
  | nil => exact absurd hn (Decimal.toList_toString_ne_nil n)
  | cons c rest => exact ⟨c, rest, hn, isNumeric_of_mem_toString (n := n) (by rw [hn]; exact List.mem_cons_self)⟩

private theorem describe_text_eq_cons (s : String) :
    ∃ mark rest, (Value.text s).describe.toList = mark :: rest ∧ (mark = '"' ∨ mark = '\x27') :=
  ⟨_, _, toList_quote s, quoteMark_eq_or s.toList⟩

private theorem describe_ne_append {n : Int} {s : String} {rest rest' : List Char} :
    (Value.int n).describe.toList ++ rest ≠ (Value.text s).describe.toList ++ rest' := by
  intro h
  obtain ⟨c, left, hc, hnumeric⟩ := describe_int_eq_cons n
  obtain ⟨mark, right, hd, hmark⟩ := describe_text_eq_cons s
  rw [hc, hd] at h
  obtain rfl : c = mark := (List.cons.inj h).1
  have hno : isNumeric c = false := by rcases hmark with rfl | rfl <;> rfl
  simp [hno] at hnumeric

/-- Of a shown value and what stands behind it, both can be told, unless a digit or a sign stands behind it. -/
theorem describe_append_inj {v w : Value} {rest rest' : List Char} (hrest : rest.takeWhile isNumeric = [])
    (hrest' : rest'.takeWhile isNumeric = [])
    (h : v.describe.toList ++ rest = w.describe.toList ++ rest') : v = w ∧ rest = rest' := by
  cases v with
  | int m =>
    cases w with
    | int n =>
      obtain ⟨rfl, hend⟩ := toString_append_inj hrest hrest' h
      exact ⟨rfl, hend⟩
    | text t => exact absurd h describe_ne_append
  | text s =>
    cases w with
    | int n => exact absurd h.symm describe_ne_append
    | text t =>
      have hquote : quoteChars s.toList ++ rest = quoteChars t.toList ++ rest' := by
        rw [← toList_quote, ← toList_quote]
        exact h
      obtain ⟨hchars, hend⟩ := quoteChars_append_inj hquote
      rw [String.toList_inj.mp hchars]
      exact ⟨rfl, hend⟩

theorem isPrintable_of_mem_describe {v : Value} {c : Char} (hc : c ∈ v.describe.toList) :
    isPrintable c = true := by
  cases v with
  | int n => exact isPrintable_of_mem_toString hc
  | text s => exact isPrintable_of_mem_quote hc

/-! ### Several values -/

/-- What stands behind a value if `values` are still to come. -/
private def closing : List Value → List Char
  | [] => [']']
  | v :: rest => ',' :: ' ' :: (v.describe.toList ++ closing rest)

/-- What stands behind the opening bracket. -/
private def opened : List Value → List Char
  | [] => [']']
  | v :: rest => v.describe.toList ++ closing rest

private theorem intercalate_eq_opened (values : List Value) :
    [',', ' '].intercalate ((values.map Value.describe).map String.toList) ++ [']'] = opened values := by
  induction values with
  | nil => rfl
  | cons v rest ih =>
    cases rest with
    | nil => simp [opened, closing]
    | cons w rest =>
      simp only [List.map_cons] at ih ⊢
      rw [List.intercalate_cons_cons, List.append_assoc, List.append_assoc, ih]
      rfl

private theorem toList_describeStack (stack : List Value) :
    (describeStack stack).toList = '[' :: opened stack.reverse := by
  rw [← intercalate_eq_opened]
  simp only [describeStack, String.toList_append, String.toList_intercalate]
  rfl

private theorem takeWhile_closing (values : List Value) : (closing values).takeWhile isNumeric = [] := by
  cases values <;> rfl

private theorem closing_inj {vs ws : List Value} (h : closing vs = closing ws) : vs = ws := by
  induction vs generalizing ws with
  | nil =>
    cases ws with
    | nil => rfl
    | cons w ws => exact absurd (List.cons.inj h).1 (by decide)
  | cons v vs ih =>
    cases ws with
    | nil => exact absurd (List.cons.inj h).1 (by decide)
    | cons w ws =>
      have hbehind := (List.cons.inj (List.cons.inj h).2).2
      obtain ⟨rfl, hrest⟩ := describe_append_inj (takeWhile_closing vs) (takeWhile_closing ws) hbehind
      rw [ih hrest]

/-- No value is shown with a bracket in front. -/
private theorem opened_ne_nil {v : Value} {vs : List Value} : opened (v :: vs) ≠ opened [] := by
  intro h
  cases v with
  | int n =>
    obtain ⟨c, rest, hc, hnumeric⟩ := describe_int_eq_cons n
    simp only [opened, hc] at h
    obtain rfl : c = ']' := (List.cons.inj h).1
    exact absurd hnumeric (by decide)
  | text s =>
    obtain ⟨mark, rest, hc, hmark⟩ := describe_text_eq_cons s
    simp only [opened, hc] at h
    obtain rfl : mark = ']' := (List.cons.inj h).1
    exact absurd hmark (by decide)

private theorem opened_inj {vs ws : List Value} (h : opened vs = opened ws) : vs = ws := by
  cases vs with
  | nil =>
    cases ws with
    | nil => rfl
    | cons w ws => exact absurd h.symm opened_ne_nil
  | cons v vs =>
    cases ws with
    | nil => exact absurd h opened_ne_nil
    | cons w ws =>
      obtain ⟨rfl, hrest⟩ := describe_append_inj (takeWhile_closing vs) (takeWhile_closing ws) h
      rw [closing_inj hrest]

private theorem isPrintable_of_mem_closing {values : List Value} {c : Char} (hc : c ∈ closing values) :
    isPrintable c = true := by
  induction values with
  | nil => exact List.mem_singleton.mp hc ▸ rfl
  | cons v rest ih =>
    rcases List.mem_cons.mp hc with rfl | hc
    · rfl
    rcases List.mem_cons.mp hc with rfl | hc
    · rfl
    rcases List.mem_append.mp hc with hc | hc
    · exact isPrintable_of_mem_describe hc
    · exact ih hc

private theorem isPrintable_of_mem_opened {values : List Value} {c : Char} (hc : c ∈ opened values) :
    isPrintable c = true := by
  cases values with
  | nil =>
    have hclosing : c ∈ closing [] := hc
    exact isPrintable_of_mem_closing hclosing
  | cons v rest =>
    rcases List.mem_append.mp hc with hc | hc
    · exact isPrintable_of_mem_describe hc
    · exact isPrintable_of_mem_closing hc

theorem isPrintable_of_mem_describeStack {stack : List Value} {c : Char} (hc : c ∈ (describeStack stack).toList) :
    isPrintable c = true := by
  rw [toList_describeStack] at hc
  rcases List.mem_cons.mp hc with rfl | hc
  · rfl
  · exact isPrintable_of_mem_opened hc

theorem describeStack_inj {s t : List Value} : describeStack s = describeStack t ↔ s = t := by
  constructor
  · intro h
    have hchars := congrArg String.toList h
    rw [toList_describeStack, toList_describeStack] at hchars
    exact List.reverse_inj.mp (opened_inj (List.cons.inj hchars).2)
  · rintro rfl
    rfl

/-- Stacks that are shown alike hold the same values, of the same types and in the same order, whatever their texts are
made of. This is so where a stack is shown by itself, in the report of a run that ended with the wrong number of values,
and in the trace of an instruction. All that is shown of a stack is printable. -/
theorem describeStack_eq_iff (s t : List Value) :
    (describeStack s = describeStack t ↔ s = t) ∧
    (∀ name name', (Cause.finalDepth name s).received = (Cause.finalDepth name' t).received ↔ s = t) ∧
    (∀ index item, Event.message ⟨index, item, s⟩ = Event.message ⟨index, item, t⟩ ↔ s = t) ∧
    ∀ c ∈ (describeStack s).toList, isPrintable c = true := by
  refine ⟨describeStack_inj, ?_, ?_, fun c => isPrintable_of_mem_describeStack⟩
  · intro name name'
    have hreceived : ∀ n stack, (Cause.finalDepth n stack).received = some ("Stack: " ++ describeStack stack) :=
      fun _ _ => rfl
    rw [hreceived, hreceived, Option.some.injEq, String.append_right_inj, describeStack_inj]
  · intro index item
    have hmessage : ∀ stack, Event.message ⟨index, item, stack⟩ =
        toString index ++ ": " ++ item.plain ++ " -> " ++ describeStack stack := fun _ => rfl
    rw [hmessage, hmessage, String.append_right_inj, describeStack_inj]

/-- A text that looks like two texts is not shown as the two texts are. -/
theorem describeStack_eq_iff_lookalike :
    let s : List Value := [.text "a', 'b"]
    let t : List Value := [.text "b", .text "a"]
    describeStack s = "[\"a', 'b\"]" ∧ describeStack t = "['a', 'b']" ∧ describeStack s ≠ describeStack t := by
  intro s t
  refine ⟨by decide, by decide, ?_⟩
  intro h
  have hst : s = t := (describeStack_eq_iff s t).1.mp h
  exact absurd hst (by decide)

end StackMachine
