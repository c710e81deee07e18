import StackMachine.Text.Quote
import StackMachine.Word

/-!
# Values

What the stack holds: integers and texts.
-/

namespace StackMachine

/-- A value on the stack. -/
inductive Value where
  | int (n : Int)
  | text (s : String)
deriving DecidableEq

namespace Value

/-- The name of the value's type, as messages give it. -/
def typeName : Value → String
  | int _ => "integer"
  | text _ => "text"

/-- The value as it is shown in traces and messages. -/
def describe : Value → String
  | int n => toString n
  | text s => Text.quote s

/-- The value as a piece of text: an integer turns into its decimal form. -/
def toText : Value → String
  | int n => toString n
  | text s => s

/-- Whether the value can be written out. -/
def isWritable : Value → Bool
  | int n => Decimal.isWritable n
  | text _ => true

/-- The value as it is shown in traces and messages, if it can be written out. -/
def describe? (v : Value) : Option String :=
  if v.isWritable then some v.describe else none

end Value

/-- A stack as it is shown in traces and messages: in brackets, the bottom first. Stacks are lists with the top at the
head. -/
def describeStack (stack : List Value) : String :=
  "[" ++ ", ".intercalate (stack.reverse.map Value.describe) ++ "]"

end StackMachine
