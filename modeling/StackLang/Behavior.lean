import StackLang.Arithmetic
import StackLang.Session.State

/-!
# Behaviors

The code of the sixteen built-in words.  Each is put together from the operations of a stack and
from `Session.print`, in the order in which the word takes its values off, looks at them and puts
its results back.  A word fails where one of its steps fails, and keeps what the steps before have
done: a division by zero has already taken its two operands.
-/

namespace StackLang

namespace Behavior

open Session

/-- Replaces the topmost value by its image. -/
def unary (op : UnaryOp) : Behavior := do
  let value ← onStack Stack.pop
  push (op.apply value)

/-- Takes the two topmost values off and pushes their result, if they have one. -/
def binary (op : BinaryOp) : Behavior := do
  let (left, right) ← onStack Stack.popTwo
  -- the operands are gone before the operation can fail
  let result ← Routine.reading fun _ => op.apply left right
  push result

/-- Takes the topmost value off and prints it, with a space behind it. -/
def dot : Behavior := do
  let value ← onStack Stack.pop
  print (value.text ++ " ")

/-- Prints the whole stack. -/
def dotS : Behavior := do
  let rendered ← Routine.reading fun session => .ok (session.stack.render Value.text)
  print rendered

/-- Pushes the number of values. -/
def depth : Behavior := do
  let size ← Routine.reading fun session => .ok session.stack.size
  push (Value.ofInt size)

/-- Prints the words that can be executed, with a space between them and one at the end. -/
def words : Behavior := do
  let known ← Routine.reading fun session => .ok session.vocabulary.spellings
  print (String.intercalate " " known ++ " ")

/-- Pushes a copy of the value that lies `depth` places below the topmost one. -/
def copy (depth : Nat) : Behavior := do
  let value ← Routine.reading fun session => session.stack.peek depth
  push value

/-- Takes the topmost value off. -/
def drop : Behavior := do
  let _ ← onStack Stack.pop
  return ()

/-- Puts the two topmost values back in the other order. -/
def swap : Behavior := do
  let (deeper, top) ← onStack Stack.popTwo
  push top
  push deeper

/-- Puts the three topmost values back with the deepest one on top. -/
def rot : Behavior := do
  let values ← onStack (Stack.popMany 3)
  onStack (.changing fun s => s.pushAll (values.rotateLeft 1))

/-- Takes all values off. -/
def clear : Behavior := onStack (.changing fun _ => .empty)

end Behavior

/-- The code of the built-in meaning of an opcode. -/
def Opcode.behavior : Opcode → Behavior
  | .plus => .binary .sum
  | .minus => .binary .difference
  | .star => .binary .product
  | .slash => .binary .quotient
  | .negate => .unary .negate
  | .abs => .unary .magnitude
  | .dot => .dot
  | .dotS => .dotS
  | .depth => .depth
  | .words => .words
  | .dup => .copy 0
  | .drop => .drop
  | .swap => .swap
  | .over => .copy 1
  | .rot => .rot
  | .clear => .clear

end StackLang
