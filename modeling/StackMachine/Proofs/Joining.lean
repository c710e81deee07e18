import StackMachine.Proofs.Reading

/-!
# Joining groups of digits

Texts and integers that are joined two at a time make one text, which does not depend on the bracketing
(`Expr.Joins.eval`). It is a text of digits exactly if every operand is a group of digits: a text of digits, perhaps an
empty one, or an integer that is not negative (`forall_isGroup_iff`). Read as a numeral, the groups compose by position:
each one shifts what stands before it by as many places as it has digits (`value_joined`). So a program that joins its
operands and reads the result succeeds exactly if they are such groups, not all of them empty, and the number that they
compose is a word (`run_of_joins`).
-/

namespace StackMachine

open Decimal (Denotes denotes_iff)

/-- The expression joins the operands, two at a time and in their order. -/
inductive Expr.Joins : Expr → List Value → Prop
  | int (n : Int) (fits : Word.fits n = true) : Joins (.int n fits) [.int n]
  | text (s : String) : Joins (.text s) [.text s]
  | concat {left right : Expr} {xs ys : List Value} (hl : left.Joins xs) (hr : right.Joins ys) :
    Joins (.binary .concat left right) (xs ++ ys)

/-- The operands as one text, in their order. -/
def joined (operands : List Value) : String := String.join (operands.map Value.toText)

/-- The value is a text of digits, perhaps an empty one, or an integer that is not negative. -/
def Value.IsGroup : Value → Prop
  | .int n => 0 ≤ n
  | .text s => ∀ c ∈ s.toList, c.isDigit = true

def Value.width (v : Value) : Nat := v.toText.length

/-- The number that a group of digits stands for; an empty one stands for zero. -/
def Value.number : Value → Nat
  | .int n => n.toNat
  | .text s => Decimal.value s.toList

/-- The number that groups of digits compose: each one shifts what stands before it by its own width. -/
def positional (operands : List Value) : Nat :=
  operands.foldl (fun n v => n * 10 ^ v.width + v.number) 0

/-! ### The text -/

theorem joined_append (xs ys : List Value) : joined (xs ++ ys) = joined xs ++ joined ys := by
  simp [joined]

theorem toList_joined (operands : List Value) : (joined operands).toList = operands.flatMap fun v => v.toText.toList := by
  simp [joined, List.flatMap_map]

theorem Value.isGroup_iff {v : Value} : v.IsGroup ↔ ∀ c ∈ v.toText.toList, c.isDigit = true := by
  cases v with
  | text s => rfl
  | int n =>
    simp only [Value.IsGroup, Value.toText, Decimal.toList_toString]
    by_cases hn : 0 ≤ n
    · rw [if_pos hn]
      exact iff_of_true hn (Decimal.isNumeral_iff.mp (Decimal.isNumeral_toDigits n.toNat)).2
    · -- the sign is no digit
      rw [if_neg hn]
      refine iff_of_false hn fun h => ?_
      exact absurd (h '-' (List.mem_cons_self ..)) (by decide)

/-- Joined values are a text of digits exactly if each of them is a group of digits. -/
theorem forall_isGroup_iff {operands : List Value} :
    (∀ v ∈ operands, v.IsGroup) ↔ ∀ c ∈ (joined operands).toList, c.isDigit = true := by
  simp only [toList_joined, List.mem_flatMap, Value.isGroup_iff]
  constructor
  · rintro h c ⟨v, hv, hc⟩
    exact h v hv c hc
  · intro h v hv c hc
    exact h c ⟨v, hv, hc⟩

/-! ### The number -/

/-- The decimal form of an integer that is not negative denotes the integer. -/
theorem Decimal.denotes_toString {n : Int} (hn : 0 ≤ n) : Denotes (toString n).toList n.toNat := by
  rw [denotes_iff, toList_toString, if_pos hn]
  exact ⟨isNumeral_toDigits n.toNat, Nat.ofDigitChars_toDigits (by decide) (by decide)⟩

theorem Value.IsGroup.value_toText {v : Value} (hv : v.IsGroup) : Decimal.value v.toText.toList = v.number := by
  cases v with
  | text s => rfl
  | int n => exact (denotes_iff.mp (Decimal.denotes_toString hv)).2

private theorem value_append_joined {operands : List Value} (h : ∀ v ∈ operands, v.IsGroup) (front : List Char) :
    Decimal.value (front ++ (joined operands).toList) =
      operands.foldl (fun n v => n * 10 ^ v.width + v.number) (Decimal.value front) := by
  induction operands generalizing front with
  | nil => simp [joined]
  | cons v rest ih =>
    obtain ⟨hv, hrest⟩ := List.forall_mem_cons.mp h
    have hnext : Decimal.value (front ++ v.toText.toList) = Decimal.value front * 10 ^ v.width + v.number := by
      rw [Decimal.value_append, hv.value_toText, Value.width, String.length_toList]
    rw [toList_joined, List.flatMap_cons, ← List.append_assoc, ← toList_joined, ih hrest, hnext, List.foldl_cons]

theorem value_joined {operands : List Value} (h : ∀ v ∈ operands, v.IsGroup) :
    Decimal.value (joined operands).toList = positional operands := by
  exact value_append_joined h []

/-- Joined values denote a number exactly if they are groups of digits, not all of them empty, and then it is the one that
the groups compose. -/
theorem denotes_joined_iff {operands : List Value} {m : Nat} :
    Denotes (joined operands).toList m ↔
      (∀ v ∈ operands, v.IsGroup) ∧ joined operands ≠ "" ∧ m = positional operands := by
  rw [denotes_iff, Decimal.isNumeral_iff, ← forall_isGroup_iff, ne_eq, String.toList_eq_nil_iff]
  constructor
  · rintro ⟨⟨hne, hgroups⟩, rfl⟩
    exact ⟨hgroups, hne, value_joined hgroups⟩
  · rintro ⟨hgroups, hne, rfl⟩
    exact ⟨⟨hne, hgroups⟩, value_joined hgroups⟩

/-! ### The bracketing -/

namespace Expr.Joins

variable {e : Expr} {operands : List Value}

theorem size_eq (he : e.Joins operands) : e.size + 1 = 2 * operands.length := by
  induction he with
  | int | text => rfl
  | concat _ _ ihl ihr =>
    simp only [Expr.size, List.length_append]
    omega

private theorem eval_concat {left right : Expr} {a b : Value} (ha : left.eval = .ok a) (hb : right.eval = .ok b) :
    (Expr.binary .concat left right).eval = .ok (.text (a.toText ++ b.toText)) := by
  simp only [Expr.eval, ha, hb]
  rfl

private theorem exists_eval (he : e.Joins operands) : ∃ v, e.eval = .ok v ∧ v.toText = joined operands := by
  induction he with
  | int n fits => exact ⟨.int n, rfl, by simp [joined]⟩
  | text s => exact ⟨.text s, rfl, by simp [joined]⟩
  | concat _ _ ihl ihr =>
    obtain ⟨a, ha, hatext⟩ := ihl
    obtain ⟨b, hb, hbtext⟩ := ihr
    refine ⟨_, eval_concat ha hb, ?_⟩
    rw [joined_append, ← hatext, ← hbtext]
    rfl

/-- The value of two or more joined operands is their text, whatever the bracketing. -/
theorem eval (he : e.Joins operands) (hlen : 2 ≤ operands.length) : e.eval = .ok (.text (joined operands)) := by
  cases he with
  | int | text => simp at hlen
  | concat hl hr =>
    obtain ⟨a, ha, hatext⟩ := hl.exists_eval
    obtain ⟨b, hb, hbtext⟩ := hr.exists_eval
    rw [eval_concat ha hb, joined_append, hatext, hbtext]

end Expr.Joins

/-! ### Reading what was joined -/

private theorem Expr.eval_toInt {e : Expr} {text : String} (h : e.eval = .ok (.text text)) :
    (Expr.toInt e).eval = (readResult (.text text)).mapError (⟨·, e.size, .toInt⟩) := by
  simp only [Expr.eval, h]

section

variable {e : Expr} {text : String} (h : e.eval = .ok (.text text)) (name : String) (explicit : Bool)
include h

private theorem outcome_toInt_eq_halted_iff {v : Int} :
    (∃ s, ((Expr.toInt e).program name explicit).outcome = .halted v s) ↔
      ∃ m : Nat, Denotes text.toList m ∧ (m : Int) ≤ Word.greatest ∧ v = m := by
  have hread : readResult (.text text) = .ok (.int v) ↔
      ∃ m : Nat, Denotes text.toList m ∧ (m : Int) ≤ Word.greatest ∧ v = m := by
    rw [readResult_eq_ok_iff]
    simp
  rw [Expr.outcome_eq_halted_iff, Expr.eval_toInt h, ← hread]
  cases readResult (.text text) <;> simp [Except.mapError]

private theorem outcome_toInt_faultsWith_iff {kind : Report.Kind} :
    ((Expr.toInt e).program name explicit).outcome.FaultsWith kind e.size (some .toInt) ↔
      readResult (.text text) = .error kind := by
  rw [Expr.outcome_faultsWith_iff name explicit (by decide), Expr.eval_toInt h]
  cases readResult (.text text) <;> simp [Except.mapError]

private theorem outcome_toInt_toString {n : Int} (htext : text = toString n) (fits : Word.fits n = true) (hn : 0 ≤ n) :
    ∃ s, ((Expr.toInt e).program name explicit).outcome = .halted n s := by
  have hcast : (n.toNat : Int) = n := Int.toNat_of_nonneg hn
  refine (outcome_toInt_eq_halted_iff h name explicit).mpr ⟨n.toNat, ?_, ?_, hcast.symm⟩
  · rw [htext]
    exact Decimal.denotes_toString hn
  · rw [hcast]
    exact (Word.fits_iff.mp fits).2

end

/-- A program that joins two or more operands leaves their text, whatever the bracketing. Reading the text behind that
succeeds exactly if it denotes a word, and then the operands are groups of digits and the value is the number that they
compose by position. It overflows if the text denotes a greater number, and it cannot be parsed if the text denotes none,
as with a negative integer among the operands. An integer that is not negative is read back from its decimal form. -/
theorem run_of_joins (e : Expr) (operands : List Value) (he : e.Joins operands) (hlen : 2 ≤ operands.length)
    (name : String) (explicit : Bool) :
    (∃ s, (State.start.walk (e.program name explicit).items).2 = .stopped s ∧ s.stack = [.text (joined operands)]) ∧
    (∀ v : Int, (∃ s, ((Expr.toInt e).program name explicit).outcome = .halted v s) ↔
      ∃ m : Nat, Denotes (joined operands).toList m ∧ (m : Int) ≤ Word.greatest ∧ v = m) ∧
    (∀ v s, ((Expr.toInt e).program name explicit).outcome = .halted v s →
      (∀ g ∈ operands, g.IsGroup) ∧ v = positional operands) ∧
    (((Expr.toInt e).program name explicit).outcome.FaultsWith .arithmeticOverflow (2 * operands.length - 1)
      (some .toInt) ↔ ∃ m : Nat, Denotes (joined operands).toList m ∧ Word.greatest < (m : Int)) ∧
    (((Expr.toInt e).program name explicit).outcome.FaultsWith .parse (2 * operands.length - 1) (some .toInt) ↔
      ¬ ∃ m, Denotes (joined operands).toList m) ∧
    (∀ n : Int, .int n ∈ operands → n < 0 →
      ((Expr.toInt e).program name explicit).outcome.FaultsWith .parse (2 * operands.length - 1) (some .toInt)) ∧
    (∀ (n : Int) (fits : Word.fits n = true), 0 ≤ n →
      (∃ s, ((Expr.toInt (.binary .concat (.int n fits) (.text ""))).program name explicit).outcome = .halted n s) ∧
      ∃ s, ((Expr.toInt (.binary .concat (.text "") (.int n fits))).program name explicit).outcome = .halted n s) := by
  have heval := he.eval hlen
  have hindex : 2 * operands.length - 1 = e.size := by
    have hsize := he.size_eq
    omega
  have hhalted := fun v : Int => outcome_toInt_eq_halted_iff heval name explicit (v := v)
  have hparse : ((Expr.toInt e).program name explicit).outcome.FaultsWith .parse e.size (some .toInt) ↔
      ¬ ∃ m, Denotes (joined operands).toList m := by
    rw [outcome_toInt_faultsWith_iff heval, readResult_eq_parse_iff]
  rw [hindex]
  refine ⟨?_, hhalted, ?_, ?_, hparse, ?_, ?_⟩
  · obtain ⟨s, hstop, hstack, -⟩ := Expr.stopped_of_eval heval name explicit
    exact ⟨s, hstop, hstack⟩
  · intro v s hs
    obtain ⟨m, hm, -, rfl⟩ := (hhalted v).mp ⟨s, hs⟩
    obtain ⟨hgroups, -, rfl⟩ := denotes_joined_iff.mp hm
    exact ⟨hgroups, rfl⟩
  · rw [outcome_toInt_faultsWith_iff heval, readResult_eq_overflow_iff]
  · intro n hmem hneg
    refine hparse.mpr ?_
    rintro ⟨m, hm⟩
    have hn : 0 ≤ n := (denotes_joined_iff.mp hm).1 _ hmem
    omega
  · intro n fits hn
    constructor
    · have hleft : (Expr.binary .concat (.int n fits) (.text "")).eval = .ok (.text (toString n ++ "")) := rfl
      exact outcome_toInt_toString hleft name explicit (by simp) fits hn
    · have hright : (Expr.binary .concat (.text "") (.int n fits)).eval = .ok (.text ("" ++ toString n)) := rfl
      exact outcome_toInt_toString hright name explicit (by simp) fits hn

/-- The empty group is no digit, and the zeros in front of a later group hold its place. -/
theorem run_of_joins_nested :
    let e : Expr := .binary .concat (.text "0") (.binary .concat (.binary .concat (.int 42 rfl) (.text "")) (.text "069"))
    let operands : List Value := [.text "0", .int 42, .text "", .text "069"]
    e.Joins operands ∧ positional operands = 42069 ∧
      ∃ s, ((Expr.toInt e).program "groups" true).outcome = .halted 42069 s := by
  intro e operands
  have he : e.Joins operands := .concat (.text "0") (.concat (.concat (.int 42 rfl) (.text "")) (.text "069"))
  have hdenotes : Denotes (joined operands).toList 42069 := denotes_iff.mpr ⟨by decide, by decide⟩
  obtain ⟨-, hhalted, -⟩ := run_of_joins e operands he (by decide) "groups" true
  exact ⟨he, by decide, (hhalted 42069).mpr ⟨42069, hdenotes, by decide, rfl⟩⟩

end StackMachine
