import Mathlib.Algebra.Group.Nat.Defs
import StackMachine.Machine

/-!
# Numerals and words

A numeral of `n` digits denotes a number below `10 ^ n`, and one without leading zeros denotes at least `10 ^ (n - 1)`.
So a numeral with more significant digits than the greatest word has is greater than any word, and reading a text
(`Effect.parse`) gives what comparing its value alone would give (`parse_cases`).
-/

namespace StackMachine

namespace Decimal

theorem toNat_of_isDigit {c : Char} (h : c.isDigit = true) : 48 ≤ c.toNat ∧ c.toNat ≤ 57 := by
  simpa [Char.isDigit, UInt32.le_iff_toNat_le] using h

private theorem digit_lt {c : Char} (h : c.isDigit = true) : c.toNat - '0'.toNat < 10 := by
  have hc := toNat_of_isDigit h
  have h0 : '0'.toNat = 48 := rfl
  omega

private theorem one_le_digit {c : Char} (h : c.isDigit = true) (h0 : c ≠ '0') : 1 ≤ c.toNat - '0'.toNat := by
  have hc := toNat_of_isDigit h
  have hz : '0'.toNat = 48 := rfl
  have hne : c.toNat ≠ '0'.toNat := fun he => h0 (Char.toNat_inj.mp he)
  omega

theorem value_cons (c : Char) (rest : List Char) :
    value (c :: rest) = 10 ^ rest.length * (c.toNat - '0'.toNat) + value rest := by
  unfold value
  rw [Nat.ofDigitChars_cons, Nat.ofDigitChars_eq_ofDigitChars_zero]
  simp

theorem value_lt_pow {digits : List Char} (h : ∀ c ∈ digits, c.isDigit = true) :
    value digits < 10 ^ digits.length := by
  induction digits with
  | nil => simp [value]
  | cons c rest ih =>
    have hc := digit_lt (h c (by simp))
    have hr := ih fun d hd => h d (by simp [hd])
    rw [value_cons, List.length_cons, Nat.pow_succ]
    calc 10 ^ rest.length * (c.toNat - '0'.toNat) + value rest
        < 10 ^ rest.length * (c.toNat - '0'.toNat) + 10 ^ rest.length := by omega
      _ = 10 ^ rest.length * (c.toNat - '0'.toNat + 1) := (Nat.mul_succ _ _).symm
      _ ≤ 10 ^ rest.length * 10 := Nat.mul_le_mul_left _ (by omega)

theorem pow_le_value {c : Char} {rest : List Char} (hc : c.isDigit = true) (h0 : c ≠ '0') :
    10 ^ rest.length ≤ value (c :: rest) := by
  rw [value_cons]
  calc 10 ^ rest.length = 10 ^ rest.length * 1 := (Nat.mul_one _).symm
    _ ≤ 10 ^ rest.length * (c.toNat - '0'.toNat) := Nat.mul_le_mul_left _ (one_le_digit hc h0)
    _ ≤ _ := Nat.le_add_right _ _

theorem isNumeral_iff {text : List Char} : isNumeral text = true ↔ text ≠ [] ∧ ∀ c ∈ text, c.isDigit = true := by
  cases text <;> simp [isNumeral]

/-- A natural number is written as a numeral. -/
theorem isNumeral_toDigits (n : Nat) : isNumeral (Nat.toDigits 10 n) = true :=
  isNumeral_iff.mpr ⟨Nat.toDigits_ne_nil, fun _ hc => Nat.isDigit_of_mem_toDigits (by decide) (by decide) hc⟩

theorem toList_toString (n : Int) :
    (toString n).toList = if 0 ≤ n then Nat.toDigits 10 n.toNat else '-' :: Nat.toDigits 10 (-n).toNat := by
  rw [Int.toString_eq_repr, Int.repr_eq_if]
  split
  · rw [Nat.toList_repr]
  · rw [String.toList_append, Nat.toList_repr]
    rfl

theorem toList_toString_ne_nil (n : Int) : (toString n).toList ≠ [] := by
  rw [toList_toString]
  split
  · exact Nat.toDigits_ne_nil
  · simp

/-- An integer is written with digits and possibly a sign. -/
theorem eq_minus_or_isDigit {n : Int} {c : Char} (hc : c ∈ (toString n).toList) : c = '-' ∨ c.isDigit = true := by
  have hdigit : ∀ m, c ∈ Nat.toDigits 10 m → c.isDigit = true :=
    fun _ => Nat.isDigit_of_mem_toDigits (by decide) (by decide)
  rw [toList_toString] at hc
  split at hc
  · exact .inr (hdigit _ hc)
  · exact (List.mem_cons.mp hc).imp_right (hdigit _)

/-- What is left of a text of digits after its leading zeros is a text of digits that starts with none. -/
private theorem significant_digits {text : List Char} (h : ∀ c ∈ text, c.isDigit = true) :
    (∀ c ∈ significant text, c.isDigit = true) ∧ ∀ c rest, significant text = c :: rest → c ≠ '0' := by
  constructor
  · intro c hc
    exact h c ((List.dropWhile_suffix _).subset hc)
  · intro c rest he
    have := List.head?_dropWhile_not (· == '0') text
    rw [significant] at he
    rw [he] at this
    simpa using this

/-- A numeral with more significant digits than the greatest word denotes no word. -/
theorem greatest_lt_value {text : List Char} (h : isNumeral text = true)
    (hlen : Word.maxDigits < (significant text).length) : Word.greatest < value text := by
  obtain ⟨hd, h0⟩ := significant_digits (isNumeral_iff.mp h).2
  rw [← value_significant]
  rw [Word.maxDigits_eq] at hlen
  cases hs : significant text with
  | nil => simp [hs] at hlen
  | cons c rest =>
    have hpow : 10 ^ 19 ≤ 10 ^ rest.length := by
      apply Nat.pow_le_pow_right (by decide)
      rw [hs, List.length_cons] at hlen
      omega
    have hval : 10 ^ rest.length ≤ value (c :: rest) := pow_le_value (hd c (by simp [hs])) (h0 c rest hs)
    simp only [Word.greatest]
    omega

theorem value_significant_lt {text : List Char} (h : isNumeral text = true)
    (hlen : (significant text).length ≤ Word.maxDigits) : value (significant text) < 10 ^ 19 := by
  obtain ⟨hd, -⟩ := significant_digits (isNumeral_iff.mp h).2
  rw [Word.maxDigits_eq] at hlen
  exact Nat.lt_of_lt_of_le (value_lt_pow hd) (Nat.pow_le_pow_right (by decide) hlen)

end Decimal

/-- An integer of at most forty digits can be written out. -/
theorem isWritable_of_natAbs_lt {n : Int} (h : n.natAbs < 10 ^ 40) : Decimal.isWritable n = true := by
  have hb : 10 ^ 40 ≤ Decimal.writingBound := by decide +kernel
  simp only [Decimal.isWritable, decide_eq_true_eq]
  omega

/-- Reading a text depends on whether it is a numeral and on the number that it denotes; the number of its digits only
decides which of two causes an overflow has. -/
theorem parse_cases (text : String) (rest : List Value) :
    (Decimal.isNumeral text.toList = true ∧ Word.fits (Decimal.value text.toList) = true ∧
      Effect.parse text rest = .ok (.int (Decimal.value text.toList) :: rest)) ∨
    (Decimal.isNumeral text.toList = true ∧ Word.fits (Decimal.value text.toList) = false ∧
      ∃ cause : Cause, Effect.parse text rest = .error ⟨cause, rest⟩ ∧ cause.kind = .arithmeticOverflow ∧
        cause.isWritable = true) ∨
    (Decimal.isNumeral text.toList = false ∧ Effect.parse text rest = .error ⟨.notNumeral text, rest⟩) := by
  by_cases hn : Decimal.isNumeral text.toList = true
  · by_cases hlen : Word.maxDigits < (Decimal.significant text.toList).length
    · -- not read at all, but too great if it were
      have hbig := Decimal.greatest_lt_value hn hlen
      have hfits : Word.fits (Decimal.value text.toList) = false := by
        simp only [Word.fits, Bool.and_eq_false_iff, decide_eq_false_iff_not]
        omega
      have hparse : Effect.parse text rest = .error ⟨.longNumeral (Decimal.significant text.toList).length, rest⟩ := by
        simp only [Effect.parse, hn, hlen, ↓reduceIte]
      exact .inr (.inl ⟨hn, hfits, _, hparse, rfl, rfl⟩)
    · have hsmall := Decimal.value_significant_lt hn (by omega)
      have hparse : Effect.parse text rest = Effect.pushWord .toInt (Decimal.value text.toList) rest := by
        simp only [Effect.parse, hn, hlen, ↓reduceIte, Decimal.value_significant]
      rw [Decimal.value_significant] at hsmall
      cases hfits : Word.fits (Decimal.value text.toList) with
      | true => exact .inl ⟨hn, rfl, by simp [hparse, Effect.pushWord, hfits]⟩
      | false =>
        have hover : Effect.parse text rest = .error ⟨.overflow .toInt (Decimal.value text.toList), rest⟩ := by
          simp [hparse, Effect.pushWord, hfits]
        refine .inr (.inl ⟨hn, rfl, _, hover, rfl, ?_⟩)
        exact isWritable_of_natAbs_lt (by simp only [Int.natAbs_natCast]; omega)
  · exact .inr (.inr ⟨by simpa using hn, by simp only [Effect.parse, hn]; rfl⟩)

end StackMachine
