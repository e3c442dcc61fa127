import StackLang.Session.Display
import StackLang.Source.Input

/-!
# Batch runs

Lines are executed one after the other in one session.  The transcript of a batch keeps every line
with the session after it; what is written for the batch, with or without styling, is read off the
transcript.
-/

namespace StackLang

/-- An executed line and the session right after it. -/
structure ExecutedLine where
  line : String
  session : Session
  deriving DecidableEq

/-- What is written for an executed line. -/
def ExecutedLine.text (executed : ExecutedLine) (styled : Bool) : String :=
  executed.session.display executed.line executed.session.output styled ++ "\n"

/-- The lines executed one after the other from a session. -/
def Session.transcript (session : Session) : List String → List ExecutedLine
  | [] => []
  | line :: rest =>
    let after := session.enter line
    ⟨line, after⟩ :: after.transcript rest

/-- What is written for a transcript. -/
def transcriptText (styled : Bool) (transcript : List ExecutedLine) : String :=
  String.join (transcript.map fun executed => executed.text styled)

/-- No lines show nothing. -/
@[simp] theorem transcriptText_nil (styled : Bool) : transcriptText styled [] = "" := by
  simp [transcriptText]

/-- The text of the first line stands in front of those of the others. -/
@[simp] theorem transcriptText_cons (styled : Bool) (executed : ExecutedLine)
    (rest : List ExecutedLine) :
    transcriptText styled (executed :: rest) =
      executed.text styled ++ transcriptText styled rest := by
  simp [transcriptText]

/-- How a program run ended and what it wrote. -/
structure Outcome where
  exitCode : Nat
  stdout : String
  stderr : String
  deriving DecidableEq

/-- The outcome of running the files at the given paths in a fresh session.  Lines in front of the
first thing that cannot be read are executed all the same. -/
def runBatch (read : String → Source) (styled : Bool) (paths : List String) : Outcome :=
  let input := Input.ofPaths read paths
  let stdout := transcriptText styled (Session.transcript {} input.lines)
  match input.failure? with
  | none => ⟨0, stdout, ""⟩
  | some failure => ⟨1, stdout, failure.message ++ "\n"⟩

end StackLang
