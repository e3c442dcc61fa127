/-!
# Opcodes

Every word that can be executed resolves to one of sixteen opcodes.  What an opcode does is
decided elsewhere; here are its two names and the order in which opcodes are listed.
-/

namespace StackLang

/-- The key of an executable word.  In the pictures `( before -- after )` the topmost value stands
on the right. -/
inductive Opcode where
  /-- `( b a -- b+a )` -/
  | plus
  /-- `( b a -- b-a )` -/
  | minus
  /-- `( b a -- b*a )` -/
  | star
  /-- `( b a -- b/a )` -/
  | slash
  /-- `( a -- -a )` -/
  | negate
  /-- `( a -- |a| )` -/
  | abs
  /-- `( a -- )`, printing `a`. -/
  | dot
  /-- `( -- )`, printing the whole stack. -/
  | dotS
  /-- `( -- n )`, the depth of the stack. -/
  | depth
  /-- `( -- )`, printing the words that can be executed. -/
  | words
  /-- `( a -- a a )` -/
  | dup
  /-- `( a -- )` -/
  | drop
  /-- `( a b -- b a )` -/
  | swap
  /-- `( a b -- a b a )` -/
  | over
  /-- `( a b c -- b c a )` -/
  | rot
  /-- `( ... -- )` -/
  | clear
  deriving DecidableEq

namespace Opcode

/-- All opcodes in the order in which they are listed. -/
def all : List Opcode :=
  [.plus, .minus, .star, .slash, .negate, .abs, .dot, .dotS, .depth, .words, .dup, .drop, .swap,
    .over, .rot, .clear]

/-- The name of an opcode where it stands alone. -/
def name : Opcode → String
  | .plus => "plus"
  | .minus => "minus"
  | .star => "star"
  | .slash => "slash"
  | .negate => "negate"
  | .abs => "abs"
  | .dot => "dot"
  | .dotS => "dotS"
  | .depth => "depth"
  | .words => "words"
  | .dup => "dup"
  | .drop => "drop"
  | .swap => "swap"
  | .over => "over"
  | .rot => "rot"
  | .clear => "clear"

/-- The name of an opcode in the description of a vocabulary. -/
def title : Opcode → String
  | .plus => "Plus"
  | .minus => "Minus"
  | .star => "Star"
  | .slash => "Slash"
  | .negate => "Negate"
  | .abs => "Abs"
  | .dot => "Dot"
  | .dotS => "DotS"
  | .depth => "Depth"
  | .words => "Words"
  | .dup => "Dup"
  | .drop => "Drop"
  | .swap => "Swap"
  | .over => "Over"
  | .rot => "Rot"
  | .clear => "Clear"

/-- The opcode with a given name. -/
def ofName? (text : String) : Option Opcode := all.find? fun op => op.name == text

/-- Every opcode is listed. -/
@[simp] theorem mem_all (op : Opcode) : op ∈ all := by cases op <;> decide

/-- No opcode is listed twice. -/
theorem nodup_all : all.Nodup := by decide

end Opcode

end StackLang
