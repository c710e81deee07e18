import StackMachine.Text.Printable

/-!
# Quoted text

A text is written between two quote marks on one line. The mark in use and the backslash are written after a
backslash; so are the letters that stand for line feed, carriage return and tab. Any other unprintable character is
written as its code point in lower-case hexadecimal: two digits after `\x`, four after `\u`, eight after `\U`.
-/

namespace StackMachine.Text

/-- The mark around a text: the single quote, unless the text holds one and holds no double quote. -/
def quoteMark (text : List Char) : Char :=
  if text.contains '\x27' && !text.contains '"' then '"' else '\x27'

/-- The code point `n` in hexadecimal with at least `width` digits. -/
def hexadecimal (width n : Nat) : List Char :=
  (Nat.toDigits 16 n).leftpad width '0'

/-- One character of a quoted text, `mark` being the quote mark in use. -/
def escape (mark c : Char) : List Char :=
  if c = mark ∨ c = '\\' then ['\\', c]
  else if c = '\n' then ['\\', 'n']
  else if c = '\r' then ['\\', 'r']
  else if c = '\t' then ['\\', 't']
  else if isPrintable c then [c]
  else if c.toNat < 0x100 then '\\' :: 'x' :: hexadecimal 2 c.toNat
  else if c.toNat < 0x10000 then '\\' :: 'u' :: hexadecimal 4 c.toNat
  else '\\' :: 'U' :: hexadecimal 8 c.toNat

/-- The characters of a quoted text. -/
def quoteChars (text : List Char) : List Char :=
  let mark := quoteMark text
  mark :: (text.flatMap (escape mark) ++ [mark])

/-- A text as it is written in messages: quoted, escaped and on one line. -/
def quote (text : String) : String :=
  String.ofList (quoteChars text.toList)

theorem toList_quote (text : String) : (quote text).toList = quoteChars text.toList := by
  simp [quote]

theorem quoteMark_eq_or (text : List Char) : quoteMark text = '"' ∨ quoteMark text = '\x27' := by
  unfold quoteMark; split <;> simp

end StackMachine.Text
