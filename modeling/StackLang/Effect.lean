import StackLang.Behavior

/-!
# Effects of words

What one built-in word does, apart from the session in which it does it: the stack it leaves, the
text it prints and the error it raises, if it raises one.  The effect is that of the word's code in
a session that has displayed nothing and keeps no error.  That the code does nothing else, and does
the same in every session with that vocabulary and that stack, is a theorem about the words
(`Opcode.perform_behavior`).
-/

namespace StackLang

/-- What the execution of a word brings about. -/
structure Effect where
  /-- The stack afterwards, also when the word failed. -/
  stack : Stack Value
  /-- The text printed by the word. -/
  printed : String := ""
  /-- The error that the word raised. -/
  error? : Option Diagnostic := none
  deriving DecidableEq

namespace Effect

/-- A word that only changes the stack. -/
def quiet (s : Stack Value) : Effect := ⟨s, "", none⟩

/-- A word that fails. -/
def failure (s : Stack Value) (d : Diagnostic) : Effect := ⟨s, "", some d⟩

/-- A number is pushed. -/
def number (s : Stack Value) (value : Value) : Effect := quiet (s.push value)

end Effect

/-- What the built-in meaning of an opcode does to a stack.  The vocabulary is the one whose words
`words` lists. -/
def Opcode.effect (op : Opcode) (v : Vocabulary) (s : Stack Value) : Effect :=
  let done := op.behavior.perform { vocabulary := v, stack := s }
  ⟨done.2.stack, done.2.output, done.1⟩

/-- The session after an effect, with what was printed added to the output. -/
def Session.absorb (session : Session) (effect : Effect) : Session :=
  { session with
    stack := effect.stack
    output := session.output ++ effect.printed }

end StackLang
