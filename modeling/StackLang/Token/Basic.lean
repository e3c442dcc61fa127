import StackLang.Spelling
import StackLang.Value

/-!
# Tokens

What a word of a line stands for: a number, an opcode written as a symbol or as a name, or nothing
that is known.
-/

namespace StackLang

/-- What a word stands for. -/
inductive Token where
  | number (value : Value)
  | operator (opcode : Opcode)
  | word (opcode : Opcode)
  | unknown (text : String)
  deriving DecidableEq

namespace Token

/-- The four sorts of tokens. -/
inductive Kind where
  | number
  | operator
  | word
  | unknown
  deriving DecidableEq

/-- The sort of a token. -/
def kind : Token → Kind
  | number _ => .number
  | operator _ => .operator
  | word _ => .word
  | unknown _ => .unknown

/-- The opcode that a token executes, if it names one. -/
def opcode? : Token → Option Opcode
  | operator op => some op
  | word op => some op
  | number _ => none
  | unknown _ => none

/-- The value that a token pushes, if it is a number. -/
def value? : Token → Option Value
  | number value => some value
  | _ => none

/-- The text of a token.  An opcode is written as its own table spells it, or by its name when that
table does not spell it. -/
def text : Token → String
  | number value => value.text
  | operator op => (Spelling.text? Spelling.symbols op).getD op.name
  | word op => (Spelling.text? Spelling.names op).getD op.name
  | unknown text => text

end Token

end StackLang
