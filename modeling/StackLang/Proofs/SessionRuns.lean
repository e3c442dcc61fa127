import StackLang.Proofs.WordEffects
import StackLang.Session.Basic

/-!
# Sessions read off runs

A session runs the code of its words, and the code may do anything to the session.  Here it is shown
what this comes to.  An opcode or a token acts on a session through its effect, which is decided by
the vocabulary and the stack (`Session.execute_eq_absorb`, `Session.dispatch_eq_absorb`).  So the
tokens of a line, dispatched one after the other, do what the run of the line says
(`Session.dispatchLexemes_eq_run`), and the session after a line is read off that run
(`Session.enter_of_none`, `Session.enter_of_stop`).
-/

namespace StackLang

namespace Session

/-! ## One opcode or token -/

/-- An opcode acts on a session through its effect. -/
theorem execute_eq_absorb (session : Session) (op : Opcode) :
    session.execute op =
      ((session.vocabulary.execute op session.stack).error?,
        session.absorb (session.vocabulary.execute op session.stack)) := by
  unfold execute Vocabulary.execute
  cases session.vocabulary.meaning? op with
  | some meaning => exact meaning.perform_behavior session
  | none => exact Prod.ext rfl (session.absorb_failure _).symm

/-- A token acts on a session through its effect. -/
theorem dispatch_eq_absorb (session : Session) (token : Token) :
    session.dispatch token =
      ((session.vocabulary.dispatch token session.stack).error?,
        session.absorb (session.vocabulary.dispatch token session.stack)) := by
  cases token with
  | number value =>
    refine Prod.ext rfl ?_
    simp [dispatch, Routine.perform, push, onStack, Routine.onPart, Routine.changing, absorb,
      Vocabulary.dispatch, Effect.number, Effect.quiet]
  | operator op => exact session.execute_eq_absorb op
  | word op => exact session.execute_eq_absorb op
  | unknown text => exact Prod.ext rfl (session.absorb_failure _).symm

/-- The error of a token is that of its effect. -/
lemma fst_dispatch (session : Session) (token : Token) :
    (session.dispatch token).1 = (session.vocabulary.dispatch token session.stack).error? := by
  rw [dispatch_eq_absorb]

/-- A token leaves the session that has absorbed its effect. -/
lemma snd_dispatch (session : Session) (token : Token) :
    (session.dispatch token).2 =
      session.absorb (session.vocabulary.dispatch token session.stack) := by
  rw [dispatch_eq_absorb]

/-- No token changes the vocabulary. -/
lemma vocabulary_dispatch (session : Session) (token : Token) :
    (session.dispatch token).2.vocabulary = session.vocabulary := by
  rw [snd_dispatch, absorb]

/-! ## The words of a line -/

/-- Lexemes that are dispatched one after the other do what their run says: the failure that is
reported is that of the item at which the run stops, the stack is that of the run, and what the run
prints is added to the output.  The vocabulary and the error that is kept stay. -/
theorem dispatchLexemes_eq_run (session : Session) (lexemes : List Lexeme) :
    session.dispatchLexemes lexemes =
      ((session.vocabulary.run Lexeme.token lexemes session.stack).stop?.map fun stop =>
          diagnose stop.1 stop.2,
        { session with
          stack := (session.vocabulary.run Lexeme.token lexemes session.stack).stack
          output := session.output ++
            (session.vocabulary.run Lexeme.token lexemes session.stack).printed }) := by
  induction lexemes generalizing session with
  | nil => simp [dispatchLexemes]
  | cons lexeme rest ih =>
    rw [dispatchLexemes, dispatch_eq_absorb]
    cases herror : (session.vocabulary.dispatch lexeme.token session.stack).error? with
    | some d =>
      rw [Vocabulary.run_cons_of_error herror]
      rfl
    | none =>
      rw [Vocabulary.run_cons_of_none herror]
      simp [ih, absorb, Run.andThen, String.append_assoc]

/-- A line dispatches its words from a clean output, so that only the run of the line is seen. -/
lemma dispatchLexemes_cleared (session : Session) (line : String) :
    session.cleared.dispatchLexemes (Lexeme.ofLine line) =
      ((session.runLine line).stop?.map fun stop => diagnose stop.1 stop.2,
        ⟨session.vocabulary, (session.runLine line).stack, (session.runLine line).printed,
          none⟩) := by
  rw [dispatchLexemes_eq_run]
  simp [cleared, runLine]

/-- A line of which every word succeeds leaves no error. -/
theorem enter_of_none {session : Session} {line : String}
    (h : (session.runLine line).stop? = none) :
    session.enter line =
      ⟨session.vocabulary, (session.runLine line).stack,
        (session.runLine line).printed ++ okText, none⟩ := by
  simp only [enter, dispatchLexemes_cleared, h, Option.map_none]

/-- A line that stops at a lexeme leaves the error of that lexeme. -/
theorem enter_of_stop {session : Session} {line : String} {lexeme : Lexeme}
    {d : Diagnostic} (h : (session.runLine line).stop? = some (lexeme, d)) :
    session.enter line =
      ⟨session.vocabulary, (session.runLine line).stack,
        (session.runLine line).printed ++ d.message, some (diagnose lexeme d)⟩ := by
  -- the place and the word of an error do not show in its message
  have hmessage : (diagnose lexeme d).message = d.message := rfl
  simp only [enter, dispatchLexemes_cleared, h, Option.map_some, hmessage]

/-- Lines with the same run do the same to sessions with the same vocabulary. -/
lemma enter_congr {first second : Session} {line line' : String}
    (hvocabulary : first.vocabulary = second.vocabulary)
    (hrun : first.runLine line = second.runLine line') :
    first.enter line = second.enter line' := by
  simp only [enter, dispatchLexemes_cleared, hvocabulary, hrun]

/-- No line changes the vocabulary. -/
@[simp] theorem vocabulary_enter (session : Session) (line : String) :
    (session.enter line).vocabulary = session.vocabulary := by
  cases h : (session.runLine line).stop? with
  | none => rw [enter_of_none h]
  | some stop => rw [enter_of_stop h]

/-- A line leaves the stack of its run. -/
@[simp] theorem stack_enter (session : Session) (line : String) :
    (session.enter line).stack = (session.runLine line).stack := by
  cases h : (session.runLine line).stop? with
  | none => rw [enter_of_none h]
  | some stop => rw [enter_of_stop h]

end Session

end StackLang
