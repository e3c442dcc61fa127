import StackLang.Behavior
import StackLang.Lexeme

/-!
# Sessions

Lines are executed in a session one at a time.  A line starts with a clean output and no error; its
tokens are dispatched one after the other until one of them fails, and what they did to the stack
stays even then.  Single tokens and opcodes can be executed too: these add to the output of the
session and do not touch its last error.
-/

namespace StackLang

/-- The text shown after a line of which every word succeeded. -/
def okText : String := "ok"

namespace Session

/-- The session after one opcode, and the error if it failed.  An opcode to which the vocabulary
gives no meaning is an undefined word. -/
def execute (session : Session) (op : Opcode) : Option Diagnostic × Session :=
  match session.vocabulary.meaning? op with
  | some meaning => meaning.behavior.perform session
  | none => (some (.raise .undefinedWord), session)

/-- The session after one token, and the error if it failed. -/
def dispatch (session : Session) : Token → Option Diagnostic × Session
  | .number value => (push value).perform session
  | .operator op => session.execute op
  | .word op => session.execute op
  | .unknown _ => (some (.raise .undefinedWord), session)

/-- What the failure of a lexeme is reported as: the error that was raised, with the place and the
text of the lexeme. -/
def diagnose (lexeme : Lexeme) (d : Diagnostic) : Diagnostic :=
  (d.inColumn lexeme.column).withWord lexeme.source

/-- Dispatches the tokens of lexemes in order, up to and with the first one that fails, and reports
the failure of that one. -/
def dispatchLexemes (session : Session) : List Lexeme → Option Diagnostic × Session
  | [] => (none, session)
  | lexeme :: rest =>
    match session.dispatch lexeme.token with
    | (some d, after) => (some (diagnose lexeme d), after)
    | (none, after) => after.dispatchLexemes rest

/-- The session at the beginning of a line, with nothing displayed and no error kept. -/
def cleared (session : Session) : Session := { session with output := "", lastError? := none }

/-- The session after a line.  Its output is the text to display for the line: what the words
printed, and then either `okText` or the message of the error. -/
def enter (session : Session) (line : String) : Session :=
  match session.cleared.dispatchLexemes (Lexeme.ofLine line) with
  | (none, after) => { after with output := after.output ++ okText }
  | (some d, after) => { after with output := after.output ++ d.message, lastError? := some d }

/-- Executes a line: the text to display for it, and the session after it. -/
def executeLine (session : Session) (line : String) : String × Session :=
  let after := session.enter line
  (after.output, after)

/-- Something that a session can be asked to do. -/
inductive Call where
  | line (text : String)
  | dispatch (token : Token)
  | execute (op : Opcode)

/-- The session after a call, and the error that the call met. -/
def call (session : Session) : Call → Option Diagnostic × Session
  | .line text =>
    let after := session.enter text
    (after.lastError?, after)
  | .dispatch token => session.dispatch token
  | .execute op => session.execute op

/-- The errors and sessions that a list of calls leads through. -/
def calls (session : Session) : List Call → List (Option Diagnostic × Session)
  | [] => []
  | request :: rest => session.call request :: calls (session.call request).2 rest

end Session

end StackLang
