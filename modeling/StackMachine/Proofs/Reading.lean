import Mathlib.Data.List.Induction
import StackMachine.Proofs.Expression
import StackMachine.Proofs.StackLaw

/-!
# Reading numerals

A numeral is read digit by digit: a digit denotes itself, and a digit behind a numeral multiplies by ten what the numeral
denotes (`Decimal.Denotes`). An instruction `TO_INT` that a run comes to pushes the number that the text on the stack
denotes, if it is a word; it overflows if the number is greater than any word, with however many zeros in front; and a
text that denotes no number cannot be parsed (`toInt_iff_denotes`). Counting the significant digits before reading them changes
nothing about this.
-/

namespace StackMachine

namespace Decimal

/-- The text consists of ASCII digits, and `n` is the number that they denote in base ten. -/
inductive Denotes : List Char → Nat → Prop
  | digit {c : Char} (h : '0' ≤ c ∧ c ≤ '9') : Denotes [c] (c.toNat - '0'.toNat)
  | shift {text : List Char} {n : Nat} {c : Char} (front : Denotes text n) (h : '0' ≤ c ∧ c ≤ '9') :
    Denotes (text ++ [c]) (10 * n + (c.toNat - '0'.toNat))

theorem isDigit_iff {c : Char} : c.isDigit = true ↔ '0' ≤ c ∧ c ≤ '9' := by
  simp [Char.isDigit, Char.le_def]

theorem value_append (s t : List Char) : value (s ++ t) = value s * 10 ^ t.length + value t := by
  rw [value, Nat.ofDigitChars_append, Nat.ofDigitChars_eq_ofDigitChars_zero, Nat.mul_comm]
  rfl

private theorem value_singleton (c : Char) : value [c] = c.toNat - '0'.toNat := by
  have h := value_cons c []
  simpa [value] using h

theorem value_concat (text : List Char) (c : Char) : value (text ++ [c]) = 10 * value text + (c.toNat - '0'.toNat) := by
  rw [value_append, value_singleton, List.length_singleton, Nat.pow_one, Nat.mul_comm]

/-- A text denotes a number exactly if it is a numeral, and then it is the value of its digits. -/
theorem denotes_iff {text : List Char} {n : Nat} : Denotes text n ↔ isNumeral text = true ∧ value text = n := by
  constructor
  · intro h
    induction h with
    | @digit c h =>
      have hc := isDigit_iff.mpr h
      exact ⟨by simp [isNumeral, hc], value_singleton c⟩
    | @shift text n c front h ih =>
      obtain ⟨hn, rfl⟩ := ih
      obtain ⟨hne, hdigits⟩ := isNumeral_iff.mp hn
      refine ⟨isNumeral_iff.mpr ⟨by simp, ?_⟩, value_concat text c⟩
      intro d hd
      rcases List.mem_append.mp hd with hd | hd
      · exact hdigits d hd
      · rw [List.mem_singleton.mp hd]
        exact isDigit_iff.mpr h
  · rintro ⟨hn, rfl⟩
    -- the last digit was read last, so the induction is on the text without it
    induction text using List.reverseRecOn with
    | nil => simp [isNumeral] at hn
    | append_singleton front c ih =>
      obtain ⟨-, hdigits⟩ := isNumeral_iff.mp hn
      have hc := isDigit_iff.mp (hdigits c (by simp))
      by_cases hfront : front = []
      · subst hfront
        rw [List.nil_append, value_singleton]
        exact .digit hc
      · have hrest : isNumeral front = true := isNumeral_iff.mpr ⟨hfront, fun d hd => hdigits d (by simp [hd])⟩
        rw [value_concat]
        exact .shift (ih hrest) hc

end Decimal

open Decimal (Denotes denotes_iff)

theorem Decimal.Denotes.unique {text : List Char} {m n : Nat} (hm : Denotes text m) (hn : Denotes text n) : m = n := by
  rw [← (denotes_iff.mp hm).2, ← (denotes_iff.mp hn).2]

/-- A numeral with more significant digits than any word has denotes no word. -/
theorem Decimal.Denotes.greatest_lt {text : List Char} {m : Nat} (h : Denotes text m)
    (hlen : Word.maxDigits < (Decimal.significant text).length) : Word.greatest < (m : Int) := by
  obtain ⟨hn, rfl⟩ := denotes_iff.mp h
  exact Decimal.greatest_lt_value hn hlen

/-! ### One text -/

section

variable (text : String)

/-- Reading a text gives the number that it denotes, an overflow if that is no word, or a parse fault if there is none. -/
theorem readResult_cases :
    (∃ m : Nat, Denotes text.toList m ∧ (m : Int) ≤ Word.greatest ∧ readResult (.text text) = .ok (.int m)) ∨
    (∃ m : Nat, Denotes text.toList m ∧ Word.greatest < (m : Int) ∧
      readResult (.text text) = .error .arithmeticOverflow) ∨
    ((¬ ∃ m, Denotes text.toList m) ∧ readResult (.text text) = .error .parse) := by
  simp only [readResult, wordResult]
  by_cases hn : Decimal.isNumeral text.toList = true
  · have hm : Denotes text.toList (Decimal.value text.toList) := denotes_iff.mpr ⟨hn, rfl⟩
    have hleast : Word.least ≤ (Decimal.value text.toList : Int) := by
      simp only [Word.least]
      omega
    by_cases hle : (Decimal.value text.toList : Int) ≤ Word.greatest
    · exact .inl ⟨_, hm, hle, by rw [if_pos hn, if_pos (Word.fits_iff.mpr ⟨hleast, hle⟩)]⟩
    · have hfits : ¬ Word.fits (Decimal.value text.toList) = true := fun h => hle (Word.fits_iff.mp h).2
      exact .inr (.inl ⟨_, hm, Int.lt_of_not_ge hle, by rw [if_pos hn, if_neg hfits]⟩)
  · refine .inr (.inr ⟨?_, by rw [if_neg hn]⟩)
    rintro ⟨m, hm⟩
    exact hn (denotes_iff.mp hm).1

variable {text}

theorem readResult_eq_ok_iff {v : Value} :
    readResult (.text text) = .ok v ↔
      ∃ m : Nat, Denotes text.toList m ∧ (m : Int) ≤ Word.greatest ∧ v = .int m := by
  rcases readResult_cases text with ⟨m, hm, hle, h⟩ | ⟨m, hm, hlt, h⟩ | ⟨hno, h⟩ <;> rw [h]
  · constructor
    · intro hv
      injection hv with hv
      exact ⟨m, hm, hle, hv.symm⟩
    · rintro ⟨n, hn, -, rfl⟩
      rw [hm.unique hn]
  · refine iff_of_false (by simp) ?_
    rintro ⟨n, hn, hle, -⟩
    have := hm.unique hn
    omega
  · refine iff_of_false (by simp) ?_
    rintro ⟨n, hn, -⟩
    exact hno ⟨n, hn⟩

theorem readResult_eq_overflow_iff :
    readResult (.text text) = .error .arithmeticOverflow ↔
      ∃ m : Nat, Denotes text.toList m ∧ Word.greatest < (m : Int) := by
  rcases readResult_cases text with ⟨m, hm, hle, h⟩ | ⟨m, hm, hlt, h⟩ | ⟨hno, h⟩ <;> rw [h]
  · refine iff_of_false (by simp) ?_
    rintro ⟨n, hn, hlt⟩
    have := hm.unique hn
    omega
  · exact iff_of_true rfl ⟨m, hm, hlt⟩
  · refine iff_of_false (by simp) ?_
    rintro ⟨n, hn, -⟩
    exact hno ⟨n, hn⟩

theorem readResult_eq_parse_iff :
    readResult (.text text) = .error .parse ↔ ¬ ∃ m, Denotes text.toList m := by
  rcases readResult_cases text with ⟨m, hm, -, h⟩ | ⟨m, hm, -, h⟩ | ⟨hno, h⟩ <;> rw [h]
  · exact iff_of_false (by simp) fun hno => hno ⟨m, hm⟩
  · exact iff_of_false (by simp) fun hno => hno ⟨m, hm⟩
  · exact iff_of_true rfl hno

end

section

variable {below : List Value} {result : Except Report.Kind Value} {effect : Effect}

theorem Effect.Realizes.eq_ok_iff (h : Effect.Realizes below result effect) {v : Value} :
    effect = .ok (v :: below) ↔ result = .ok v := by
  cases result with
  | ok w =>
    have heffect : effect = .ok (w :: below) := h
    rw [heffect]
    simp
  | error kind =>
    obtain ⟨cause, -, rfl⟩ := h
    simp

theorem Effect.Realizes.fails_iff (h : Effect.Realizes below result effect) {kind : Report.Kind} :
    (∃ failure, effect = .error failure ∧ failure.cause.kind = kind) ↔ result = .error kind := by
  cases result with
  | ok w =>
    have heffect : effect = .ok (w :: below) := h
    rw [heffect]
    simp
  | error other =>
    obtain ⟨cause, rfl, rfl⟩ := h
    simp

end

/-! ### In a run -/

/-- A `TO_INT` that a run comes to with a text on top of the stack pushes the number that the text denotes, if it is a
word. It overflows if the text denotes a greater number, and cannot parse the text if it denotes none; nothing else can
come of it. A text that has more significant digits than any word denotes no word. -/
theorem toInt_iff_denotes (p : Program) (k : Nat) (s : State) (text : String) (rest : List Value)
    (hc : p.ComesTo k s (.instruction .toInt)) (hs : s.stack = .text text :: rest) :
    (∀ n : Int, (∃ t, p.stateAfter (k + 1) = some t ∧ t.stack = .int n :: rest) ↔
      ∃ m : Nat, Denotes text.toList m ∧ (m : Int) ≤ Word.greatest ∧ n = m) ∧
    (p.outcome.FaultsWith .arithmeticOverflow k (some .toInt) ↔
      ∃ m : Nat, Denotes text.toList m ∧ Word.greatest < (m : Int)) ∧
    (p.outcome.FaultsWith .parse k (some .toInt) ↔ ¬ ∃ m, Denotes text.toList m) ∧
    (p.stateAfter (k + 1) = none →
      p.outcome.FaultsWith .arithmeticOverflow k (some .toInt) ∨ p.outcome.FaultsWith .parse k (some .toInt)) ∧
    (∀ m : Nat, Denotes text.toList m → Word.maxDigits < (Decimal.significant text.toList).length →
      Word.greatest < (m : Int)) := by
  have hread := exec_realizes_read (.text text) rest
  have hleaves : ∀ n, (∃ t, p.stateAfter (k + 1) = some t ∧ t.stack = .int n :: rest) ↔
      readResult (.text text) = .ok (.int n) := by
    intro n
    rw [hc.leaves_iff (fun _ => rfl), hs, hread.eq_ok_iff]
  have hfaults : ∀ kind, p.outcome.FaultsWith kind k (some .toInt) ↔ readResult (.text text) = .error kind := by
    intro kind
    rw [← hread.fails_iff, ← hs]
    exact hc.faultsWith_iff (fun _ => rfl) (by decide) rfl
  refine ⟨?_, ?_, ?_, ?_, fun m hm => hm.greatest_lt⟩
  · intro n
    rw [hleaves, readResult_eq_ok_iff]
    simp
  · rw [hfaults, readResult_eq_overflow_iff]
  · rw [hfaults, readResult_eq_parse_iff]
  · intro hnone
    rw [hfaults, hfaults]
    rcases readResult_cases text with ⟨m, -, -, h⟩ | ⟨m, -, -, h⟩ | ⟨-, h⟩
    · obtain ⟨t, ht, -⟩ := (hleaves m).mpr h
      rw [hnone] at ht
      cases ht
    · exact .inl h
    · exact .inr h

/-- The least number that is no word overflows, and the zeros in front of it do not matter. -/
theorem toInt_iff_denotes_leading_zeros :
    let text := "0009223372036854775808"
    let p : Program := ⟨"numeral", [.pushStr (.text text), .toInt].map .instruction⟩
    let s : State := ⟨1, 1, [.text text], 1, none⟩
    p.ComesTo 1 s (.instruction .toInt) ∧ s.stack = [.text text] ∧
      p.outcome.FaultsWith .arithmeticOverflow 1 (some .toInt) ∧ ¬ p.outcome.FaultsWith .parse 1 (some .toInt) := by
  intro text p s
  have hc : p.ComesTo 1 s (.instruction .toInt) := ⟨rfl, rfl, rfl⟩
  have hdenotes : Denotes text.toList 9223372036854775808 := denotes_iff.mpr ⟨by decide, by decide⟩
  obtain ⟨-, hoverflow, hparse, -⟩ := toInt_iff_denotes p 1 s text [] hc rfl
  refine ⟨hc, rfl, hoverflow.mpr ⟨_, hdenotes, by decide⟩, ?_⟩
  intro h
  exact hparse.mp h ⟨_, hdenotes⟩

end StackMachine
