import StackMachine.Text.Decimal

/-!
# Binary64 numbers

A floating-point number never takes part in a computation of the machine: it only occurs as a malformed operand or
operation code, to be shown and compared. It is therefore kept as the decimal numeral that it is written with. For
comparison the numeral is read as the nearest number with a mantissa of 53 bits, a tie going to the even mantissa, so
that comparing it with an integer is exact.
-/

namespace StackMachine

/-- A floating-point number, given by a text. -/
structure Binary64 where
  text : String
deriving DecidableEq

namespace Binary64

/-- Whether a text is no exponent at all, or one behind the letter `e`: a sign and digits. -/
def isExponent : List Char → Bool
  | [] => true
  | 'e' :: '+' :: digits | 'e' :: '-' :: digits => Decimal.isNumeral digits
  | _ => false

/-- Whether a text is a finite number without a sign: digits, possibly a point and more digits, and possibly an
exponent. -/
def isFinite (text : List Char) : Bool :=
  let rest := text.dropWhile Char.isDigit
  Decimal.isNumeral (text.takeWhile Char.isDigit) &&
    match rest with
    | '.' :: places =>
      Decimal.isNumeral (places.takeWhile Char.isDigit) && isExponent (places.dropWhile Char.isDigit)
    | _ => isExponent rest

/-- Whether a text is a numeral: that of a number, finite or not, or of what is not a number. -/
def isNumeral : List Char → Bool
  | ['n', 'a', 'n'] | ['i', 'n', 'f'] | ['-', 'i', 'n', 'f'] => true
  | '-' :: text => isFinite text
  | text => isFinite text

/-- The numeral of the number: `1.5`, `-0.0`, `1e+16`, `inf`, `nan`. A text that is no numeral stands for what is not a
number. -/
def numeral (x : Binary64) : String :=
  if isNumeral x.text.toList then x.text else "nan"

/-- What a floating-point number stands for. -/
inductive Magnitude where
  | notANumber
  | infinite (negative : Bool)
  | finite (q : Rat)
deriving DecidableEq

/-- Numbers are the same if they are equal as extended rationals; `notANumber` is not even the same as itself. -/
def Magnitude.same : Magnitude → Magnitude → Bool
  | .notANumber, _ => false
  | x, y => x == y

/-- The integer nearest to `num / den`, a tie going to the even one. -/
def roundToEven (num den : Nat) : Nat :=
  let q := num / den
  let r := 2 * (num % den)
  if den < r ∨ (den = r ∧ q % 2 = 1) then q + 1 else q

/-- The exponent of two that gives `num / den` a mantissa of 53 bits, or the least exponent there is. -/
def exponent (num den : Nat) : Int :=
  let k := (num.log2 : Int) - den.log2
  let lower :=
    if k < 0 then decide (num * Nat.pow 2 (-k).toNat < den) else decide (num < den * Nat.pow 2 k.toNat)
  max (-1074) (if lower then k - 53 else k - 52)

/-- The rational `num / den` rounded to the nearest binary64 number. -/
def nearest (num den : Nat) : Rat :=
  let e := exponent num den
  if e < 0 then mkRat (roundToEven (num * Nat.pow 2 (-e).toNat) den) (Nat.pow 2 (-e).toNat)
  else (roundToEven num (den * Nat.pow 2 e.toNat) * Nat.pow 2 e.toNat : Nat)

/-- The exponent of ten after the letter `e`, with an optional sign. -/
def readExponent : List Char → Int
  | '-' :: digits => -(Decimal.value digits : Int)
  | '+' :: digits => Decimal.value digits
  | digits => Decimal.value digits

/-- The number denoted by digits, an optional point with more digits, and an optional exponent. -/
def readFinite (text : List Char) : Rat :=
  let whole := text.takeWhile Char.isDigit
  let rest := text.dropWhile Char.isDigit
  let fraction := if rest.head? = some '.' then rest.tail.takeWhile Char.isDigit else []
  let exponent := readExponent ((text.dropWhile (· != 'e')).drop 1)
  let scale := exponent - fraction.length
  let digits := Decimal.value (whole ++ fraction)
  if scale < 0 then nearest digits (Nat.pow 10 (-scale).toNat) else nearest (digits * Nat.pow 10 scale.toNat) 1

/-- What the numeral stands for. -/
def magnitude (x : Binary64) : Magnitude :=
  match x.numeral.toList with
  | ['n', 'a', 'n'] => .notANumber
  | ['i', 'n', 'f'] => .infinite false
  | ['-', 'i', 'n', 'f'] => .infinite true
  | '-' :: text => .finite (-readFinite text)
  | text => .finite (readFinite text)

end Binary64

end StackMachine
