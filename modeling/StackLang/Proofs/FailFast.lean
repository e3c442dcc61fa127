import StackLang.Proofs.MaximalRuns
import StackLang.Proofs.SessionRuns

/-!
# A line stops at its first error

The words of a line are executed in order up to the first one that fails.  This file ties the run
of a line to single dispatches: `Session.afterTokens session line i` is the session after the first
`i` tokens have been dispatched one by one, and a line either runs through all of its tokens or
stops at the first one whose dispatch fails, with the stack that this dispatch left.

An error is raised bare, without place and word, wherever it comes from (`Effect.IsClean`).  The
place and the word are added once, when the line stops.
-/

namespace StackLang

open Text

/-! ## Errors are raised bare -/

/-- A diagnostic that has neither a place nor a word yet. -/
def Diagnostic.IsBare (d : Diagnostic) : Prop := d.column = Column.nowhere ∧ d.word = ""

/-- An error is bare when it is raised. -/
@[simp] lemma Diagnostic.isBare_raise (fault : Fault) : (raise fault).IsBare := ⟨rfl, rfl⟩

/-- An effect whose error is bare and comes without any printed text. -/
def Effect.IsClean (effect : Effect) : Prop :=
  ∀ d, effect.error? = some d → d.IsBare ∧ effect.printed = ""

namespace Effect

/-- An effect without an error is clean. -/
lemma isClean_of_error?_eq_none {effect : Effect} (h : effect.error? = none) : effect.IsClean := by
  intro d hd
  rw [h] at hd
  cases hd

/-- A failure with a bare error is clean. -/
lemma isClean_failure {d : Diagnostic} (hd : d.IsBare) (s : Stack Value) :
    (failure s d).IsClean := by
  intro e he
  cases he
  exact ⟨hd, rfl⟩

end Effect

/-- The built-in meanings raise bare errors only. -/
lemma Opcode.isClean_effect (op : Opcode) (v : Vocabulary) (s : Stack Value) :
    (op.effect v s).IsClean := by
  rcases op.performs_or_fails v.spellings s with ⟨after, text, hperforms⟩ | hlt | ⟨rfl, lower, b, hs⟩
  · exact Effect.isClean_of_error?_eq_none (by rw [hperforms.effect_eq])
  · rw [effect_of_size_lt hlt]
    exact Effect.isClean_failure (Diagnostic.isBare_raise _) s
  · rw [effect_slash_of_zero hs]
    exact Effect.isClean_failure (Diagnostic.isBare_raise _) _

namespace Vocabulary

/-- Whatever an opcode means in a vocabulary, it raises bare errors only. -/
lemma isClean_execute (v : Vocabulary) (op : Opcode) (s : Stack Value) :
    (v.execute op s).IsClean := by
  unfold execute
  split
  · next meaning hmeaning => exact meaning.isClean_effect v s
  · exact Effect.isClean_failure (Diagnostic.isBare_raise _) s

/-- Every token raises bare errors only. -/
lemma isClean_dispatch (v : Vocabulary) (token : Token) (s : Stack Value) :
    (v.dispatch token s).IsClean := by
  cases token with
  | number value => exact Effect.isClean_of_error?_eq_none rfl
  | operator op => exact v.isClean_execute op s
  | word op => exact v.isClean_execute op s
  | unknown text => exact Effect.isClean_failure (Diagnostic.isBare_raise _) s

end Vocabulary

/-! ## Dispatching token by token -/

namespace Session

/-- The session after several tokens, dispatched one after the other. -/
def dispatchAll (session : Session) (tokens : List Token) : Session :=
  tokens.foldl (fun current token => (current.dispatch token).2) session

/-- The session after the first `count` tokens of a line. -/
def afterTokens (session : Session) (line : String) (count : Nat) : Session :=
  session.cleared.dispatchAll ((Token.ofLine line).take count)

/-- No tokens leave the session as it was. -/
@[simp] lemma dispatchAll_nil (session : Session) : session.dispatchAll [] = session := rfl

/-- The first of several tokens acts through its effect. -/
lemma dispatchAll_cons (session : Session) (token : Token) (rest : List Token) :
    session.dispatchAll (token :: rest) =
      (session.absorb (session.vocabulary.dispatch token session.stack)).dispatchAll rest := by
  rw [← snd_dispatch]
  rfl

/-- A run that does not stop dispatches all of its items without an error, and leaves what these
dispatches leave. -/
lemma dispatchAll_of_stop?_eq_none {α : Type} (tokenOf : α → Token) (items : List α)
    (session : Session)
    (h : (session.vocabulary.run tokenOf items session.stack).stop? = none) :
    (∀ i item, items[i]? = some item →
      ((session.dispatchAll ((items.take i).map tokenOf)).dispatch (tokenOf item)).1 = none) ∧
    session.dispatchAll (items.map tokenOf) =
      { session with
        stack := (session.vocabulary.run tokenOf items session.stack).stack
        output := session.output ++
          (session.vocabulary.run tokenOf items session.stack).printed } := by
  induction items generalizing session with
  | nil => simp
  | cons first rest ih =>
    -- the first dispatch succeeds, and the rest of the run starts from the session it leaves
    cases hfirst : (session.vocabulary.dispatch (tokenOf first) session.stack).error? with
    | some d =>
      rw [Vocabulary.run_cons_of_error hfirst] at h
      cases h
    | none =>
      rw [Vocabulary.run_cons_of_none hfirst] at h ⊢
      obtain ⟨hrest, hafter⟩ := ih (session.absorb _) h
      constructor
      · intro i item hitem
        cases i with
        | zero =>
          obtain rfl : first = item := by simpa using hitem
          exact (session.fst_dispatch _).trans hfirst
        | succ i =>
          rw [List.take_succ_cons, List.map_cons, dispatchAll_cons]
          exact hrest i item (by simpa using hitem)
      · rw [List.map_cons, dispatchAll_cons, hafter]
        simp [absorb, Run.andThen, String.append_assoc]

/-- A run that stops at an item has dispatched everything in front of it without an error, and
leaves the stack that the failing dispatch leaves. -/
lemma dispatchAll_of_stop?_eq_some {α : Type} (tokenOf : α → Token) (items : List α)
    (session : Session) {stopped : α} {d : Diagnostic}
    (h : (session.vocabulary.run tokenOf items session.stack).stop? = some (stopped, d)) :
    ∃ k, items[k]? = some stopped ∧
      (∀ i item, i < k → items[i]? = some item →
        ((session.dispatchAll ((items.take i).map tokenOf)).dispatch (tokenOf item)).1 = none) ∧
      ((session.dispatchAll ((items.take k).map tokenOf)).dispatch (tokenOf stopped)).1 = some d ∧
      (session.dispatchAll ((items.take (k + 1)).map tokenOf)).stack =
        (session.vocabulary.run tokenOf items session.stack).stack ∧
      (session.dispatchAll ((items.take k).map tokenOf)).output =
        session.output ++ (session.vocabulary.run tokenOf items session.stack).printed := by
  induction items generalizing session with
  | nil => cases h
  | cons first rest ih =>
    cases hfirst : (session.vocabulary.dispatch (tokenOf first) session.stack).error? with
    | some e =>
      have hprinted := (session.vocabulary.isClean_dispatch (tokenOf first) session.stack e hfirst).2
      rw [Vocabulary.run_cons_of_error hfirst] at h ⊢
      cases h
      refine ⟨0, rfl, ?_, (session.fst_dispatch _).trans hfirst, ?_, ?_⟩
      · intro i item hi
        cases hi
      · rw [List.take_succ_cons, List.map_cons, dispatchAll_cons]
        rfl
      · simp [hprinted]
    | none =>
      rw [Vocabulary.run_cons_of_none hfirst] at h ⊢
      obtain ⟨k, hitem, hbefore, hfails, hstack, houtput⟩ := ih (session.absorb _) h
      -- what is dispatched behind the first item is dispatched in the session that it leaves
      have hcons : ∀ i, session.dispatchAll (((first :: rest).take (i + 1)).map tokenOf) =
          (session.absorb _).dispatchAll ((rest.take i).map tokenOf) := fun i =>
        session.dispatchAll_cons _ _
      refine ⟨k + 1, by simpa using hitem, ?_, ?_, ?_, ?_⟩
      · intro i item hi hmem
        cases i with
        | zero =>
          obtain rfl : first = item := by simpa using hmem
          exact (session.fst_dispatch _).trans hfirst
        | succ i =>
          rw [hcons]
          exact hbefore i item (by omega) (by simpa using hmem)
      · rw [hcons]
        exact hfails
      · rw [hcons]
        exact hstack
      · rw [hcons, houtput]
        simp [absorb, Run.andThen, String.append_assoc]

/-! ## The two ways in which a line ends -/

/-- Every token of the line is dispatched without an error, and the line ends with the stack that
they leave and with `ok` behind everything that they printed. -/
structure RunsThrough (session : Session) (line : String) : Prop where
  succeeds : ∀ i column token, (Token.ofLineWithColumns line)[i]? = some (column, token) →
    ((session.afterTokens line i).dispatch token).1 = none
  shown : (session.executeLine line).1 =
    (session.afterTokens line (Token.ofLineWithColumns line).length).output ++ "ok"
  lastError?_eq : (session.executeLine line).2.lastError? = none
  stack_eq : (session.executeLine line).2.stack =
    (session.afterTokens line (Token.ofLineWithColumns line).length).stack

/-- The dispatch of token `k` fails with the error `d`, and no earlier one fails.  The line ends
with the stack that this dispatch leaves and with the message of the error behind everything that
was printed before.  The error that is kept names the place of the token and the part of the line
found there. -/
structure StopsAt (session : Session) (line : String) (k : Nat) (d : Diagnostic) : Prop where
  succeeds_before : ∀ i column token, i < k →
    (Token.ofLineWithColumns line)[i]? = some (column, token) →
    ((session.afterTokens line i).dispatch token).1 = none
  stack_eq : (session.executeLine line).2.stack = (session.afterTokens line (k + 1)).stack
  shown : (session.executeLine line).1 = (session.afterTokens line k).output ++ d.fault.message
  stops : ∃ column token parts e,
    (Token.ofLineWithColumns line)[k]? = some (column, token) ∧
    ((session.afterTokens line k).dispatch token).1 = some d ∧
    column.excerpt? line = some parts ∧
    (session.executeLine line).2.lastError? = some e ∧
    e.fault = d.fault ∧ e.column = column ∧ e.word = parts.marked ∧
    e.isLocated = true ∧ e.word ≠ ""

/-- The first tokens of a line are those of its first lexemes. -/
lemma afterTokens_eq (session : Session) (line : String) (count : Nat) :
    session.afterTokens line count =
      session.cleared.dispatchAll (((Lexeme.ofLine line).take count).map Lexeme.token) := by
  rw [afterTokens, Token.ofLine, List.map_take]

/-- The marks of a line are those of its lexemes. -/
lemma getElem?_ofLineWithColumns {line : String} {i : Nat} {column : Column} {token : Token} :
    (Token.ofLineWithColumns line)[i]? = some (column, token) ↔
      ∃ lexeme, (Lexeme.ofLine line)[i]? = some lexeme ∧ lexeme.column = column ∧
        lexeme.token = token := by
  simp [Token.ofLineWithColumns, Lexeme.mark]

/-- A line whose run does not stop runs through. -/
lemma runsThrough_of_stop?_eq_none {session : Session} {line : String}
    (h : (session.runLine line).stop? = none) : session.RunsThrough line := by
  obtain ⟨hsucceeds, hafter⟩ :=
    dispatchAll_of_stop?_eq_none Lexeme.token (Lexeme.ofLine line) session.cleared h
  have hend : session.afterTokens line (Token.ofLineWithColumns line).length =
      { session.cleared with
        stack := (session.runLine line).stack
        output := "" ++ (session.runLine line).printed } := by
    rw [afterTokens_eq, Token.ofLineWithColumns, List.length_map, List.take_length]
    exact hafter
  refine ⟨?_, ?_, ?_, ?_⟩
  · intro i column token hmark
    obtain ⟨lexeme, hlexeme, -, rfl⟩ := getElem?_ofLineWithColumns.1 hmark
    rw [afterTokens_eq]
    exact hsucceeds i lexeme hlexeme
  · simp [executeLine, enter_of_none h, hend, okText]
  · simp [executeLine, enter_of_none h]
  · simp [executeLine, hend]

/-- A lexeme of a line is what stands in its column, and neither the column nor the word is
empty. -/
lemma exists_excerpt_of_mem_ofLine {line : String} {lexeme : Lexeme}
    (h : lexeme ∈ Lexeme.ofLine line) :
    ∃ parts, lexeme.column.excerpt? line = some parts ∧ lexeme.source = parts.marked ∧
      lexeme.source ≠ "" ∧ lexeme.column ≠ Column.nowhere := by
  obtain ⟨hne, before, after, htext, hstart⟩ := Lexeme.exists_split_of_mem_ofLine h
  have hpos := byteLength_pos hne
  have hexcerpt := Column.excerpt?_mark htext
  rw [← hstart] at hexcerpt
  refine ⟨_, hexcerpt, rfl, ?_, ?_⟩
  · intro hempty
    have hnil : lexeme.source.toList = [] := by rw [hempty]; rfl
    exact hne (by simpa [Lexeme.source] using hnil)
  · intro hnowhere
    have hstop : lexeme.column.stop = 0 := by rw [hnowhere]; rfl
    simp only [Lexeme.column] at hstop
    omega

/-- A line whose run stops at a lexeme stops at the token of that lexeme. -/
lemma exists_stopsAt_of_stop?_eq_some {session : Session} {line : String} {lexeme : Lexeme}
    {d : Diagnostic} (h : (session.runLine line).stop? = some (lexeme, d)) :
    ∃ k, session.StopsAt line k d := by
  obtain ⟨k, hlexeme, hbefore, hfails, hstack, houtput⟩ :=
    dispatchAll_of_stop?_eq_some Lexeme.token (Lexeme.ofLine line) session.cleared h
  obtain ⟨parts, hparts, hsource, hword, hcolumn⟩ :=
    exists_excerpt_of_mem_ofLine (List.mem_of_getElem? hlexeme)
  refine ⟨k, ?_, ?_, ?_, ?_⟩
  · intro i column token hi hmark
    obtain ⟨other, hother, -, rfl⟩ := getElem?_ofLineWithColumns.1 hmark
    rw [afterTokens_eq]
    exact hbefore i other hi hother
  · rw [afterTokens_eq, hstack]
    exact stack_enter session line
  · rw [afterTokens_eq, houtput]
    simp [executeLine, enter_of_stop h, cleared, runLine, Diagnostic.message]
  · refine ⟨lexeme.column, lexeme.token, parts, diagnose lexeme d,
      getElem?_ofLineWithColumns.2 ⟨lexeme, hlexeme, rfl, rfl⟩, ?_, hparts, ?_, rfl, rfl, hsource,
      Diagnostic.isLocated_iff.2 hcolumn, hword⟩
    · rw [afterTokens_eq]
      exact hfails
    · simp [executeLine, enter_of_stop h]

/-- A line is executed up to its first error.  Either all of its tokens are dispatched without an
error, or it stops at the first one that fails.  What is displayed is the output of the session.
The error of a dispatch is never located and has no word, so the place and the word of the error
that a line keeps are not added to an error that has them already. -/
theorem executeLine_fail_fast (session : Session) (line : String) :
    (session.RunsThrough line ∨ ∃ k d, session.StopsAt line k d) ∧
      (session.executeLine line).2.output = (session.executeLine line).1 ∧
      ∀ (current : Session) (token : Token) (d : Diagnostic),
        (current.dispatch token).1 = some d →
          d.isLocated = false ∧ d.word? = none ∧
            d.column = Column.nowhere ∧ ∀ column, (d.inColumn column).word = "" := by
  refine ⟨?_, rfl, ?_⟩
  · cases hstop : (session.runLine line).stop? with
    | none => exact Or.inl (runsThrough_of_stop?_eq_none hstop)
    | some stopped =>
      obtain ⟨k, hk⟩ := exists_stopsAt_of_stop?_eq_some hstop
      exact Or.inr ⟨k, stopped.2, hk⟩
  · intro current token d hd
    rw [fst_dispatch] at hd
    obtain ⟨⟨hcolumn, hword⟩, -⟩ :=
      current.vocabulary.isClean_dispatch token current.stack d hd
    refine ⟨?_, Diagnostic.word?_eq_none_iff.2 hword, hcolumn, fun _ => hword⟩
    simp [Diagnostic.isLocated, hcolumn]

end Session

end StackLang
