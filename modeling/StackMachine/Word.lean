import StackMachine.Text.Decimal

/-!
# Machine words

The integers that the machine computes with are the signed 64-bit ones.
-/

namespace StackMachine.Word

/-- The least signed 64-bit integer. -/
def least : Int := -0x8000000000000000

/-- The greatest signed 64-bit integer. -/
def greatest : Int := 0x7FFFFFFFFFFFFFFF

/-- Whether an integer is a signed 64-bit one. -/
def fits (n : Int) : Bool := least ≤ n && n ≤ greatest

/-- The number of decimal digits of the greatest word. -/
def maxDigits : Nat := (Nat.toDigits 10 greatest.toNat).length

theorem maxDigits_eq : maxDigits = 19 := by decide

theorem fits_iff {n : Int} : fits n = true ↔ least ≤ n ∧ n ≤ greatest := by
  simp [fits]

/-- Every word is short enough to be written. -/
theorem isWritable_of_fits {n : Int} (h : fits n = true) : Decimal.isWritable n = true := by
  have h' := fits_iff.mp h
  have hb : 10 ^ 19 ≤ Decimal.writingBound := by decide +kernel
  simp only [least, greatest] at h'
  simp only [Decimal.isWritable, decide_eq_true_eq]
  omega

end StackMachine.Word
