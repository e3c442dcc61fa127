import Mathlib
import StackLang.Proofs.LetterCase
import StackLang.Proofs.LineSplitting

/-!
# Lowering the letters of a line

A line does the same when its letters are lowered.  Lowering moves no word and no byte, because it
keeps blanks and the sizes of characters (`Lexeme.ofLine_map`), and it changes the effect of no
word, because the words that it changes into other tokens are unknown in either case.  All that can
be told apart afterwards is the word that an error names.

Only the letters `A` to `Z` are lowered.  A letter of another alphabet stays what it is, also when
it looks like one of these.
-/

namespace StackLang

open Text

/-- Lowering keeps the number of bytes. -/
lemma Text.byteLength_map_toLower (cs : List Char) :
    byteLength (cs.map Char.toLower) = byteLength cs := by
  induction cs with
  | nil => rfl
  | cons c cs ih => rw [List.map_cons, byteLength_cons, byteLength_cons, utf8Size_toLower, ih]

namespace Lexeme

/-- Lowering a lexeme keeps its place. -/
lemma column_map_toLower (lexeme : Lexeme) :
    (lexeme.map Char.toLower).column = lexeme.column := by
  simp only [column, map, byteLength_map_toLower]

/-- The text of a lowered lexeme is its lowered text. -/
lemma source_map_toLower (lexeme : Lexeme) :
    (lexeme.map Char.toLower).source = lexeme.source.map Char.toLower := by
  rw [← String.toList_inj, String.toList_map]
  simp [source, map]

end Lexeme

/-- A lowered word has the effect of the word, whatever the vocabulary is. -/
lemma Vocabulary.dispatch_classify_map_toLower (v : Vocabulary) (text : String) (s : Stack Value) :
    v.dispatch (Token.classify (text.map Char.toLower)) s = v.dispatch (Token.classify text) s := by
  rcases Token.classify_map_toLower text with hsame | ⟨hlowered, hunknown⟩
  · rw [hsame]
  · rw [hlowered, hunknown]
    rfl

/-- The diagnostic with the letters of its word lowered. -/
def Diagnostic.lowered (d : Diagnostic) : Diagnostic := { d with word := d.word.map Char.toLower }

namespace Session

/-- The run of a lowered line is the run of the line, up to the lexeme at which it stops. -/
lemma runLine_map_toLower (session : Session) (line : String) :
    session.runLine (line.map Char.toLower) =
      (session.runLine line).map (Lexeme.map Char.toLower) := by
  have hdispatch : ∀ (lexeme : Lexeme) s,
      session.vocabulary.dispatch (lexeme.map Char.toLower).token s =
        session.vocabulary.dispatch lexeme.token s := by
    intro lexeme s
    rw [Lexeme.token, Lexeme.source_map_toLower, Vocabulary.dispatch_classify_map_toLower,
      Lexeme.token]
  rw [runLine, Lexeme.ofLine_map isBlank_toLower utf8Size_toLower]
  exact Vocabulary.run_map _ hdispatch _ _

/-- The error of a lowered lexeme is the lowered error of the lexeme. -/
lemma diagnose_map_toLower {lexeme : Lexeme} {d : Diagnostic} :
    diagnose (lexeme.map Char.toLower) d = (diagnose lexeme d).lowered := by
  simp only [diagnose, Lexeme.column_map_toLower, Lexeme.source_map_toLower]
  rfl

/-- A lowered line leaves the session as the line does, apart from the word of the error. -/
lemma enter_map_toLower (session : Session) (line : String) :
    session.enter (line.map Char.toLower) =
      { session.enter line with
        lastError? := (session.enter line).lastError?.map Diagnostic.lowered } := by
  have hrun := session.runLine_map_toLower line
  cases hstop : (session.runLine line).stop? with
  | none =>
    have hlowered : (session.runLine (line.map Char.toLower)).stop? = none := by
      simp [hrun, Run.map, hstop]
    rw [enter_of_none hlowered, enter_of_none hstop, hrun]
    rfl
  | some stopped =>
    obtain ⟨lexeme, d⟩ := stopped
    have hlowered : (session.runLine (line.map Char.toLower)).stop? =
        some (lexeme.map Char.toLower, d) := by simp [hrun, Run.map, hstop]
    rw [enter_of_stop hlowered, enter_of_stop hstop, hrun, diagnose_map_toLower]
    rfl

/-- Letter case never changes what a line does.  A line and the same line with its letters lowered
display the same text and leave the same stack.  Both succeed, or both fail with the same fault in
the same column, and then the word that the second error names is the lowered word of the first
one. -/
theorem executeLine_map_toLower (session : Session) (line : String) :
    (session.executeLine (line.map Char.toLower)).1 = (session.executeLine line).1 ∧
      (session.executeLine (line.map Char.toLower)).2.stack =
        (session.executeLine line).2.stack ∧
      (session.executeLine (line.map Char.toLower)).2.lastError? =
        (session.executeLine line).2.lastError?.map fun e =>
          ⟨e.fault, e.column, e.word.map Char.toLower⟩ := by
  have henter := session.enter_map_toLower line
  refine ⟨?_, ?_, ?_⟩
  · simp only [executeLine, henter]
  · simp only [executeLine, henter]
  · simp only [executeLine, henter]
    rfl

/-- The sign for kelvin looks like a capital letter and is none, so it is not lowered. -/
example : (executeLine {} ("7 DUP NO\u212a".map Char.toLower)).2.lastError? =
    some ⟨.undefinedWord, ⟨6, 11⟩, "no\u212a"⟩ := by cbv

end Session

end StackLang
