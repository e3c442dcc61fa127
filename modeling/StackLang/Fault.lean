/-!
# Faults

The reasons for which a word of a line can fail.
-/

namespace StackLang

/-- Why a word failed. -/
inductive Fault where
  /-- The stack holds fewer values than the word needs. -/
  | stackUnderflow
  /-- The divisor of a division is zero. -/
  | divisionByZero
  /-- The word has no meaning in the vocabulary in use. -/
  | undefinedWord
  deriving DecidableEq

/-- The text shown for a fault. -/
def Fault.message : Fault → String
  | .stackUnderflow => "Stack underflow"
  | .divisionByZero => "Division by zero"
  | .undefinedWord => "Undefined word"

/-- Different faults have different messages. -/
theorem Fault.message_inj {f g : Fault} : f.message = g.message ↔ f = g := by
  cases f <;> cases g <;> decide

end StackLang
