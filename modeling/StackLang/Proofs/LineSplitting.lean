import StackLang.Proofs.Layout
import StackLang.Proofs.SessionRuns

/-!
# Splitting a line

Two texts between which no word runs across can be entered as one line or as two.  The lexemes of
the joined line are those of its two parts, the second ones moved to the right by the bytes of the
first part (`Lexeme.ofLine_append`).  So a first part that succeeds is continued by the second one,
and a first part that fails hides it.
-/

namespace StackLang

universe u v

open Text

/-! ## Moved lexemes -/

/-- The words of pieces that begin further to the right are moved by as much. -/
lemma Piece.lexemesFrom_add (offset bytes : Nat) (pieces : List Piece) :
    lexemesFrom (offset + bytes) pieces =
      (lexemesFrom offset pieces).map fun lexeme => lexeme.shift bytes := by
  induction pieces generalizing offset with
  | nil => rfl
  | cons piece rest ih =>
    rw [lexemesFrom_cons, lexemesFrom_cons, List.map_cons,
      Nat.add_right_comm offset bytes (byteLength piece.characters), ih,
      Nat.add_right_comm offset bytes (byteLength piece.gap)]
    rfl

/-- A text further to the right is scanned to lexemes moved by as much. -/
lemma Lexeme.scan_add (offset bytes : Nat) (cs : List Char) :
    scan (offset + bytes) cs = (scan offset cs).map fun lexeme => lexeme.shift bytes := by
  obtain ⟨layout, rfl⟩ := Layout.exists_characters_eq cs
  have hend : Apart layout.characters [] := Or.inr (Or.inl rfl)
  have hfar := layout.scan_characters_append hend (offset + bytes)
  have hnear := layout.scan_characters_append hend offset
  simp only [List.append_nil, scan_nil] at hfar hnear
  rw [hfar, hnear, Piece.lexemesFrom_add]

/-- The lexemes of two joined texts are those of the first and, moved to the right, those of the
second. -/
theorem Lexeme.ofLine_append {a b : String} (h : Apart a.toList b.toList) :
    ofLine (a ++ b) =
      ofLine a ++ (ofLine b).map fun lexeme => lexeme.shift a.utf8ByteSize := by
  obtain ⟨layout, rfl⟩ := Layout.exists_text_eq a
  rw [Layout.toList_text] at h
  have hscan := layout.scan_characters_append h 0
  have hmoved := scan_add 0 (byteLength layout.characters) b.toList
  have hsize : byteLength layout.characters = layout.text.utf8ByteSize := by
    rw [← byteLength_toList, Layout.toList_text]
  rw [Layout.ofLine_text, ← hsize]
  simp only [ofLine, String.toList_append, Layout.toList_text]
  rw [hscan, hmoved]
  rfl

/-! ## Runs of moved lexemes -/

/-- The run with the item at which it stopped replaced by its image. -/
def Run.map {α : Type u} {β : Type v} (f : α → β) (run : Run α) : Run β :=
  ⟨run.stack, run.printed, run.stop?.map fun stop => (f stop.1, stop.2)⟩

/-- Replacing items by items that have the same effects changes nothing but the item at which a run
stops. -/
lemma Vocabulary.run_map {α : Type u} {β : Type v} {v w : Vocabulary} (f : α → β)
    {tokenOf : β → Token} {tokenOf' : α → Token}
    (hdispatch : ∀ item s, w.dispatch (tokenOf (f item)) s = v.dispatch (tokenOf' item) s)
    (items : List α) (s : Stack Value) :
    w.run tokenOf (items.map f) s = (v.run tokenOf' items s).map f := by
  induction items generalizing s with
  | nil => rfl
  | cons item rest ih =>
    rw [List.map_cons]
    cases hitem : (v.dispatch (tokenOf' item) s).error? with
    | some d =>
      have hmoved : (w.dispatch (tokenOf (f item)) s).error? = some d := by rw [hdispatch, hitem]
      rw [run_cons_of_error hmoved, run_cons_of_error hitem, hdispatch]
      rfl
    | none =>
      have hmoved : (w.dispatch (tokenOf (f item)) s).error? = none := by rw [hdispatch, hitem]
      rw [run_cons_of_none hmoved, run_cons_of_none hitem, hdispatch, ih]
      rfl

/-- The diagnostic with its place moved to the right. -/
def Diagnostic.shift (d : Diagnostic) (bytes : Nat) : Diagnostic :=
  { d with column := d.column.shift bytes }

namespace Session

/-- The error of a moved lexeme is the moved error of the lexeme. -/
lemma diagnose_shift (lexeme : Lexeme) (bytes : Nat) (d : Diagnostic) :
    diagnose (lexeme.shift bytes) d = (diagnose lexeme d).shift bytes := by
  simp [diagnose, Diagnostic.inColumn, Diagnostic.withWord, Diagnostic.shift]

/-- A line fails exactly when its run stops. -/
lemma lastError?_enter_eq_none_iff {session : Session} {line : String} :
    (session.enter line).lastError? = none ↔ (session.runLine line).stop? = none := by
  cases hstop : (session.runLine line).stop? with
  | none => simp [enter_of_none hstop]
  | some stopped => simp [enter_of_stop hstop]

/-- A first part that fails hides the second one. -/
lemma enter_append_of_stop {session : Session} {a b : String} (h : Apart a.toList b.toList)
    (hstop : (session.runLine a).stop? ≠ none) : session.enter (a ++ b) = session.enter a := by
  have hrun : session.runLine (a ++ b) = session.runLine a := by
    rw [runLine, Lexeme.ofLine_append h]
    exact Vocabulary.run_append_of_stop hstop _
  exact enter_congr rfl hrun

/-- The run of a line whose first part succeeds is continued by the run of the second part. -/
lemma runLine_append_of_none {session : Session} {a b : String} (h : Apart a.toList b.toList)
    (hnone : (session.runLine a).stop? = none) :
    session.runLine (a ++ b) =
      { ((session.enter a).runLine b).map fun lexeme => lexeme.shift a.utf8ByteSize with
        printed := (session.runLine a).printed ++ ((session.enter a).runLine b).printed } := by
  let moved := (Lexeme.ofLine b).map fun lexeme => lexeme.shift a.utf8ByteSize
  have hsecond : (session.enter a).runLine b =
      session.vocabulary.run Lexeme.token (Lexeme.ofLine b) (session.runLine a).stack := by
    simp only [runLine, vocabulary_enter, stack_enter]
  have hmoved : session.vocabulary.run Lexeme.token moved (session.runLine a).stack =
      ((session.enter a).runLine b).map fun lexeme => lexeme.shift a.utf8ByteSize := by
    rw [hsecond]
    exact Vocabulary.run_map _ (fun lexeme s => by rw [Lexeme.token_shift]) _ _
  have hjoined : session.vocabulary.run Lexeme.token (Lexeme.ofLine a ++ moved) session.stack =
      { session.vocabulary.run Lexeme.token moved (session.runLine a).stack with
        printed := (session.runLine a).printed ++
          (session.vocabulary.run Lexeme.token moved (session.runLine a).stack).printed } :=
    Vocabulary.run_append_of_none hnone moved
  rw [hmoved] at hjoined
  rw [runLine, Lexeme.ofLine_append h]
  exact hjoined

/-- A first part that succeeds is continued by the second one. -/
lemma enter_append_of_none {session : Session} {a b : String} (h : Apart a.toList b.toList)
    (hnone : (session.runLine a).stop? = none) :
    session.enter (a ++ b) =
      { (session.enter a).enter b with
        output := (session.runLine a).printed ++ ((session.enter a).enter b).output
        lastError? := ((session.enter a).enter b).lastError?.map fun e =>
          e.shift a.utf8ByteSize } := by
  have hrun := runLine_append_of_none h hnone
  cases hsecond : ((session.enter a).runLine b).stop? with
  | none =>
    have hwhole : (session.runLine (a ++ b)).stop? = none := by simp [hrun, Run.map, hsecond]
    rw [enter_of_none hwhole, enter_of_none hsecond, hrun]
    simp [Run.map, String.append_assoc]
  | some stopped =>
    obtain ⟨lexeme, d⟩ := stopped
    have hwhole : (session.runLine (a ++ b)).stop? =
        some (lexeme.shift a.utf8ByteSize, d) := by simp [hrun, Run.map, hsecond]
    rw [enter_of_stop hwhole, enter_of_stop hsecond, hrun]
    simp [Run.map, String.append_assoc, diagnose_shift]

/-- Entering two texts as one line is entering them one after the other.  When the first one
succeeds, the joined line leaves the stack that both leave, displays what the first one printed and
then what the second one displays, and fails as the second one does, at a place moved to the right
by the bytes of the first one.  When the first one fails, the second one is never reached. -/
theorem executeLine_append (session : Session) (a b : String) (h : Apart a.toList b.toList) :
    ((session.executeLine a).2.lastError? = none →
      (session.executeLine (a ++ b)).2.stack =
          ((session.executeLine a).2.executeLine b).2.stack ∧
        (∃ printed, (session.executeLine a).1 = printed ++ "ok" ∧
          (session.executeLine (a ++ b)).1 =
            printed ++ ((session.executeLine a).2.executeLine b).1) ∧
        (session.executeLine (a ++ b)).2.lastError? =
          ((session.executeLine a).2.executeLine b).2.lastError?.map fun e =>
            ⟨e.fault, e.column.shift a.utf8ByteSize, e.word⟩) ∧
    ((session.executeLine a).2.lastError? ≠ none →
      session.executeLine (a ++ b) = session.executeLine a) := by
  constructor
  · intro hfirst
    have hnone : (session.runLine a).stop? = none := lastError?_enter_eq_none_iff.1 hfirst
    have hwhole := enter_append_of_none h hnone
    refine ⟨?_, ⟨(session.runLine a).printed, ?_, ?_⟩, ?_⟩
    · simp [executeLine, hwhole]
    · simp [executeLine, enter_of_none hnone, okText]
    · simp [executeLine, hwhole]
    · simp only [executeLine, hwhole]
      rfl
  · intro hfirst
    have hstop : (session.runLine a).stop? ≠ none := fun hnone =>
      hfirst (lastError?_enter_eq_none_iff.2 hnone)
    simp only [executeLine, enter_append_of_stop h hstop]

/-- A wide blank of three bytes ends the first text here.  The division fails at the third byte of
the second text, which is the eleventh byte of the line; a first text that underflows is all that
is ever executed. -/
theorem executeLine_append_wide_blank :
    Apart "7 5 .\u3000".toList "0 / über".toList ∧
      (executeLine {} "7 5 .\u3000").2.lastError? = none ∧
      (executeLine {} ("7 5 .\u3000" ++ "0 / über")).2.lastError? =
        some ⟨.divisionByZero, ⟨10, 11⟩, "/"⟩ ∧
      Apart "5 + ".toList "6 .".toList ∧
      (executeLine {} "5 + ").2.lastError? ≠ none ∧
      executeLine {} ("5 + " ++ "6 .") = executeLine {} "5 + " := by
  have hwide : Apart "7 5 .\u3000".toList "0 / über".toList := by decide
  have hfirst : (executeLine {} "7 5 .\u3000").2.lastError? = none := by decide
  have hspace : Apart "5 + ".toList "6 .".toList := by decide
  have hfails : (executeLine {} "5 + ").2.lastError? ≠ none := by decide
  refine ⟨hwide, hfirst, ?_, hspace, hfails, (executeLine_append {} _ _ hspace).2 hfails⟩
  rw [((executeLine_append {} _ _ hwide).1 hfirst).2.2]
  decide

end Session

end StackLang
