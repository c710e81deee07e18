/-!
# Decimal numerals

Numerals are read from one or more ASCII digits. Integers are written in full up to a fixed number of digits; a message
that would hold a longer one cannot be produced.
-/

namespace StackMachine.Decimal

/-- An integer of more digits than this is never written out. -/
def digitLimit : Nat := 4300

/-- The least natural number that is too long to be written. -/
def writingBound : Nat := Nat.pow 10 digitLimit

/-- Whether an integer is short enough to be written; its sign does not count. -/
def isWritable (n : Int) : Bool := n.natAbs < writingBound

/-- Whether a text consists of one or more ASCII digits. -/
def isNumeral (text : List Char) : Bool := !text.isEmpty && text.all Char.isDigit

/-- A numeral without its leading zeros; nothing is left of a zero. -/
def significant (text : List Char) : List Char := text.dropWhile (· == '0')

/-- The number that a sequence of digits denotes in base ten; no digits denote zero. -/
def value (digits : List Char) : Nat := Nat.ofDigitChars 10 digits 0

theorem value_significant (text : List Char) : value (significant text) = value text := by
  induction text with
  | nil => rfl
  | cons c rest ih =>
    by_cases h : c = '0'
    · subst h
      simpa [significant, value, Nat.ofDigitChars_cons] using ih
    · simp [significant, h]

end StackMachine.Decimal
