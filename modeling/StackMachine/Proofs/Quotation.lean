import Mathlib.Algebra.Group.Nat.Defs
import StackMachine.Text.Quote

/-!
# Reading quoted texts

A text can be read back from between its quote marks, one character after the other (`readCharacter_escape`), and no
character starts with the closing mark. So a quoted text tells by itself where it ends, and different texts are quoted
differently (`quoteChars_append_inj`). All that is in it can be shown on one line (`isPrintable_of_mem_quoteChars`).
-/

namespace StackMachine.Text

/-! ### Hexadecimal digits -/

/-- The number that hexadecimal digits denote. -/
def hexValue (digits : List Char) : Nat :=
  digits.foldl (fun n c => 16 * n + (if c.isDigit then c.toNat - '0'.toNat else 10 + (c.toNat - 'a'.toNat))) 0

private theorem hexValue_singleton {d : Nat} (hd : d < 16) : hexValue [d.digitChar] = d := by
  decide +revert

private theorem hexValue_append_digit (digits : List Char) {d : Nat} (hd : d < 16) :
    hexValue (digits ++ [d.digitChar]) = 16 * hexValue digits + d := by
  have hsingle := hexValue_singleton hd
  simp only [hexValue, List.foldl_append, List.foldl_cons, List.foldl_nil, Nat.mul_zero, Nat.zero_add] at hsingle ⊢
  rw [hsingle]

theorem hexValue_toDigits (n : Nat) : hexValue (Nat.toDigits 16 n) = n := by
  induction n using Nat.strongRecOn with
  | ind n ih =>
    by_cases hn : n < 16
    · rw [Nat.toDigits_of_lt_base hn, hexValue_singleton hn]
    · have hlt : n / 16 < n := by omega
      have hmod : n % 16 < 16 := by omega
      rw [Nat.toDigits_of_base_le (by decide) (by omega), hexValue_append_digit _ hmod, ih _ hlt]
      omega

theorem hexValue_hexadecimal (width n : Nat) : hexValue (hexadecimal width n) = n := by
  have hzeros : ∀ k digits, hexValue (List.replicate k '0' ++ digits) = hexValue digits := by
    intro k digits
    induction k with
    | zero => rfl
    | succ k ih => exact ih
  rw [hexadecimal, List.leftpad, hzeros, hexValue_toDigits]

theorem length_hexadecimal {width n : Nat} (hwidth : 0 < width) (hn : n < 16 ^ width) :
    (hexadecimal width n).length = width := by
  have hlen : (Nat.toDigits 16 n).length ≤ width := (Nat.length_toDigits_le_iff (by decide) hwidth).mpr hn
  rw [hexadecimal, List.length_leftpad]
  omega

theorem isPrintable_of_mem_toDigits {n : Nat} {c : Char} (hc : c ∈ Nat.toDigits 16 n) : isPrintable c = true := by
  have hdigit : ∀ d < 16, isPrintable d.digitChar = true := by decide
  induction n using Nat.strongRecOn with
  | ind n ih =>
    by_cases hn : n < 16
    · rw [Nat.toDigits_of_lt_base hn, List.mem_singleton] at hc
      exact hc ▸ hdigit n hn
    · rw [Nat.toDigits_of_base_le (by decide) (by omega), List.mem_append, List.mem_singleton] at hc
      rcases hc with hc | hc
      · exact ih (n / 16) (by omega) hc
      · exact hc ▸ hdigit _ (by omega)

theorem isPrintable_of_mem_hexadecimal {width n : Nat} {c : Char} (hc : c ∈ hexadecimal width n) :
    isPrintable c = true := by
  rw [hexadecimal, List.leftpad, List.mem_append, List.mem_replicate] at hc
  rcases hc with ⟨-, rfl⟩ | hc
  · decide
  · exact isPrintable_of_mem_toDigits hc

/-! ### Characters between quote marks -/

/-- How many hexadecimal digits follow a letter that stands behind a backslash. -/
def digitsBehind : Char → Option Nat
  | 'x' => some 2
  | 'u' => some 4
  | 'U' => some 8
  | _ => none

/-- What a character behind a backslash stands for if no digits follow it. -/
def unescape : Char → Char
  | 'n' => '\n'
  | 'r' => '\r'
  | 't' => '\t'
  | c => c

/-- Reads the next character of a text, with what stands behind it; the closing mark is none. -/
def readCharacter (mark : Char) : List Char → Option (Char × List Char)
  | [] => none
  | '\\' :: [] => none
  | '\\' :: letter :: rest =>
    match digitsBehind letter with
    | some width => some (Char.ofNat (hexValue (rest.take width)), rest.drop width)
    | none => some (unescape letter, rest)
  | c :: rest => if c = mark then none else some (c, rest)

theorem readCharacter_hexadecimal {letter : Char} {width : Nat} (hletter : digitsBehind letter = some width)
    (hwidth : 0 < width) {c : Char} (hc : c.toNat < 16 ^ width) (mark : Char) (rest : List Char) :
    readCharacter mark ('\\' :: letter :: (hexadecimal width c.toNat ++ rest)) = some (c, rest) := by
  have hlen := length_hexadecimal hwidth hc
  have htake : (hexadecimal width c.toNat ++ rest).take width = hexadecimal width c.toNat := by
    rw [List.take_append_of_le_length (Nat.le_of_eq hlen.symm), List.take_of_length_le (Nat.le_of_eq hlen)]
  have hdrop : (hexadecimal width c.toNat ++ rest).drop width = rest := List.drop_left' hlen
  simp only [readCharacter, hletter, htake, hdrop, hexValue_hexadecimal, Char.ofNat_toNat]

private theorem toNat_lt (c : Char) : c.toNat < 0x110000 := by
  have hvalid := c.valid
  simp only [UInt32.isValidChar, Nat.isValidChar] at hvalid
  simp only [Char.toNat]
  omega

/-- The three ways to write a character: a letter behind a backslash, the character itself, and digits behind a letter. -/
private theorem escape_cases {mark : Char} (hmark : mark = '"' ∨ mark = '\x27') (c : Char) :
    (∃ letter, escape mark c = ['\\', letter] ∧ digitsBehind letter = none ∧ unescape letter = c ∧
      isPrintable letter = true) ∨
    (escape mark c = [c] ∧ c ≠ mark ∧ c ≠ '\\' ∧ isPrintable c = true) ∨
    ∃ letter width, escape mark c = '\\' :: letter :: hexadecimal width c.toNat ∧ digitsBehind letter = some width ∧
      0 < width ∧ c.toNat < 16 ^ width ∧ isPrintable letter = true := by
  unfold escape
  by_cases hself : c = mark ∨ c = '\\'
  · rw [if_pos hself]
    refine .inl ⟨c, rfl, ?_⟩
    rcases hself with rfl | rfl
    · rcases hmark with rfl | rfl <;> decide
    · decide
  rw [if_neg hself]
  by_cases hn : c = '\n'
  · exact .inl ⟨'n', by rw [if_pos hn], rfl, hn.symm, by decide⟩
  by_cases hr : c = '\r'
  · exact .inl ⟨'r', by rw [if_neg hn, if_pos hr], rfl, hr.symm, by decide⟩
  by_cases ht : c = '\t'
  · exact .inl ⟨'t', by rw [if_neg hn, if_neg hr, if_pos ht], rfl, ht.symm, by decide⟩
  rw [if_neg hn, if_neg hr, if_neg ht]
  by_cases hprint : isPrintable c = true
  · rw [if_pos hprint]
    simp only [not_or] at hself
    exact .inr (.inl ⟨rfl, hself.1, hself.2, hprint⟩)
  rw [if_neg hprint]
  -- what is left is written in digits, as many as its code point may take
  by_cases hx : c.toNat < 0x100
  · exact .inr (.inr ⟨'x', 2, by rw [if_pos hx], rfl, by decide, hx, by decide⟩)
  by_cases hu : c.toNat < 0x10000
  · exact .inr (.inr ⟨'u', 4, by rw [if_neg hx, if_pos hu], rfl, by decide, hu, by decide⟩)
  · have hU : c.toNat < 16 ^ 8 := Nat.lt_trans (toNat_lt c) (by decide)
    exact .inr (.inr ⟨'U', 8, by rw [if_neg hx, if_neg hu], rfl, by decide, hU, by decide⟩)

/-- A character of a quoted text is read back, whatever stands behind it. -/
theorem readCharacter_escape {mark : Char} (hmark : mark = '"' ∨ mark = '\x27') (c : Char) (rest : List Char) :
    readCharacter mark (escape mark c ++ rest) = some (c, rest) := by
  rcases escape_cases hmark c with ⟨letter, he, hnone, hletter, -⟩ | ⟨he, hne, hbackslash, -⟩ |
    ⟨letter, width, he, hsome, hwidth, hc, -⟩
  · rw [he, List.cons_append, List.cons_append, List.nil_append]
    simp only [readCharacter, hnone, hletter]
  · rw [he, List.cons_append, List.nil_append]
    simp [readCharacter, hne, hbackslash]
  · rw [he, List.cons_append, List.cons_append]
    exact readCharacter_hexadecimal hsome hwidth hc mark rest

theorem readCharacter_mark {mark : Char} (hmark : mark = '"' ∨ mark = '\x27') (rest : List Char) :
    readCharacter mark (mark :: rest) = none := by
  rcases hmark with rfl | rfl <;> rfl

/-! ### Quoted texts -/

private theorem escapes_append_inj {mark : Char} (hmark : mark = '"' ∨ mark = '\x27') {s t rest rest' : List Char}
    (h : s.flatMap (escape mark) ++ mark :: rest = t.flatMap (escape mark) ++ mark :: rest') : s = t ∧ rest = rest' := by
  induction s generalizing t with
  | nil =>
    cases t with
    | nil => exact ⟨rfl, by simpa using h⟩
    | cons d t =>
      -- the one text is over, and the other one goes on with `d`
      have hread := congrArg (readCharacter mark) h
      rw [List.flatMap_cons, List.append_assoc, readCharacter_escape hmark] at hread
      rw [List.flatMap_nil, List.nil_append, readCharacter_mark hmark] at hread
      cases hread
  | cons c s ih =>
    have hread := congrArg (readCharacter mark) h
    rw [List.flatMap_cons, List.append_assoc, readCharacter_escape hmark] at hread
    cases t with
    | nil =>
      rw [List.flatMap_nil, List.nil_append, readCharacter_mark hmark] at hread
      cases hread
    | cons d t =>
      rw [List.flatMap_cons, List.append_assoc, readCharacter_escape hmark] at hread
      obtain ⟨rfl, hrest⟩ := Prod.mk.inj (Option.some.inj hread)
      obtain ⟨rfl, hbehind⟩ := ih hrest
      exact ⟨rfl, hbehind⟩

/-- Of a quoted text and what follows it, both can be told. -/
theorem quoteChars_append_inj {s t rest rest' : List Char} (h : quoteChars s ++ rest = quoteChars t ++ rest') :
    s = t ∧ rest = rest' := by
  simp only [quoteChars, List.cons_append, List.append_assoc, List.nil_append] at h
  obtain ⟨hmark, hbody⟩ := List.cons.inj h
  rw [hmark] at hbody
  exact escapes_append_inj (quoteMark_eq_or t) hbody

private theorem isPrintable_of_mem_escape {mark c d : Char} (hmark : mark = '"' ∨ mark = '\x27')
    (hd : d ∈ escape mark c) : isPrintable d = true := by
  have hbackslash : isPrintable '\\' = true := by decide
  rcases escape_cases hmark c with ⟨letter, he, -, -, hletter⟩ | ⟨he, -, -, hc⟩ | ⟨letter, width, he, -, -, -, hletter⟩
  · rw [he, List.mem_cons, List.mem_singleton] at hd
    rcases hd with rfl | rfl
    · exact hbackslash
    · exact hletter
  · rw [he, List.mem_singleton] at hd
    exact hd ▸ hc
  · rw [he, List.mem_cons, List.mem_cons] at hd
    rcases hd with rfl | rfl | hd
    · exact hbackslash
    · exact hletter
    · exact isPrintable_of_mem_hexadecimal hd

theorem isPrintable_of_mem_quoteChars {text : List Char} {c : Char} (hc : c ∈ quoteChars text) :
    isPrintable c = true := by
  have hmark := quoteMark_eq_or text
  simp only [quoteChars, List.mem_cons, List.mem_append, List.mem_flatMap, List.not_mem_nil, or_false] at hc
  rcases hc with rfl | ⟨d, -, hd⟩ | rfl
  · rcases hmark with h | h <;> rw [h] <;> decide
  · exact isPrintable_of_mem_escape hmark hd
  · rcases hmark with h | h <;> rw [h] <;> decide

end StackMachine.Text
