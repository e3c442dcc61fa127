import StackLang.Stack.Basic
import StackLang.Value
import StackLang.Vocabulary

/-!
# The state of a session

A session keeps one stack and one vocabulary, the text that it has displayed and the error that
stopped its latest line.  The code behind a word, a `Behavior`, is a routine on the session as a
whole: it may look at each of these and change each of them.
-/

namespace StackLang

/-- The state of an interpreter between lines. -/
structure Session where
  vocabulary : Vocabulary := .standard
  stack : Stack Value := .empty
  /-- What the latest line displayed, and what was printed since. -/
  output : String := ""
  /-- The error that stopped the latest line. -/
  lastError? : Option Diagnostic := none
  deriving DecidableEq

/-- The native code behind an opcode. -/
abbrev Behavior := Routine Session Unit

namespace Session

/-- A new session with the given vocabulary. -/
def new (vocabulary : Vocabulary) : Session := { vocabulary }

/-- Works on the stack of the session. -/
def onStack {α : Type} (routine : Routine (Stack Value) α) : Routine Session α :=
  routine.onPart stack fun session s => { session with stack := s }

/-- Pushes a value. -/
def push (value : Value) : Behavior := onStack (.changing fun s => s.push value)

/-- Adds a text to the output. -/
def print (text : String) : Behavior :=
  .changing fun session => { session with output := session.output ++ text }

end Session

end StackLang
