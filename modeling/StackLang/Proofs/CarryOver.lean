import Mathlib.Data.List.Forall2
import StackLang.Proofs.Renaming

/-!
# What carries over between lines

Of all that a session keeps, a line reads the vocabulary and the stack.  Two sessions may have
displayed different texts and kept different errors; if they agree on vocabulary and stack
(`Session.Agree`), a line does the same in both and leaves both in the same state
(`Session.Same`).  Single tokens and opcodes add the same text to what is there, so that after them
the sessions still agree.  Vocabularies are compared by the meanings that they give, not by the
insertions that made them.

Each of the three kinds of calls is treated once (`Session.Agree.call`, `Session.Same.call`), and
lists of calls follow by one induction (`Session.forall₂_calls`).
-/

namespace StackLang

/-! ## Vocabularies with the same meanings -/

namespace Vocabulary

variable {v w : Vocabulary}

/-- Vocabularies with the same meanings list the same words. -/
lemma spellings_congr (h : ∀ op, v.meaning? op = w.meaning? op) : v.spellings = w.spellings := by
  simp only [spellings, contains, h]

/-- Tokens have the same effects in vocabularies with the same meanings. -/
lemma dispatch_congr (h : ∀ op, v.meaning? op = w.meaning? op) (token : Token) (s : Stack Value) :
    v.dispatch token s = w.dispatch token s := by
  have hexecute : ∀ op, v.execute op s = w.execute op s := fun op =>
    execute_congr (h op) (fun _ => spellings_congr h) s
  cases token with
  | number value => rfl
  | operator op => exact hexecute op
  | word op => exact hexecute op
  | unknown text => rfl

/-- Runs are the same in vocabularies with the same meanings. -/
lemma run_congr {α : Type*} (h : ∀ op, v.meaning? op = w.meaning? op) (tokenOf : α → Token)
    (items : List α) (s : Stack Value) : v.run tokenOf items s = w.run tokenOf items s := by
  induction items generalizing s with
  | nil => rfl
  | cons item rest ih => simp only [run, dispatch_congr h, ih]

end Vocabulary

/-! ## Sessions that agree -/

namespace Session

/-- Two sessions agree when their vocabularies give every opcode the same meaning and their stacks
are the same. -/
structure Agree (first second : Session) : Prop where
  meaning?_eq : ∀ op, first.vocabulary.meaning? op = second.vocabulary.meaning? op
  stack_eq : first.stack = second.stack

/-- Two sessions are the same when they agree and, besides, have displayed the same text and keep
the same error. -/
structure Same (first second : Session) : Prop extends Agree first second where
  output_eq : first.output = second.output
  lastError?_eq : first.lastError? = second.lastError?

/-- What two sessions do is alike when it has the same result, gives both the same stack, adds the
same text to what each has displayed, and changes nothing else. -/
def AppendAlike (first second : Session) (done done' : Option Diagnostic × Session) : Prop :=
  ∃ result stack appended,
    done = (result, { first with stack := stack, output := first.output ++ appended }) ∧
      done' = (result, { second with stack := stack, output := second.output ++ appended })

variable {first second : Session}

/-! ### One call -/

/-- One and the same effect is absorbed alike. -/
lemma appendAlike_absorb (first second : Session) (effect : Effect) :
    AppendAlike first second (effect.error?, first.absorb effect)
      (effect.error?, second.absorb effect) :=
  ⟨effect.error?, effect.stack, effect.printed, rfl, rfl⟩

/-- A token does alike in sessions that agree: its code acts through an effect, and the effect is
the same in both. -/
lemma Agree.dispatch (h : Agree first second) (token : Token) :
    AppendAlike first second (first.dispatch token) (second.dispatch token) := by
  have heffect : second.vocabulary.dispatch token second.stack =
      first.vocabulary.dispatch token first.stack := by
    rw [h.stack_eq, Vocabulary.dispatch_congr h.meaning?_eq]
  rw [dispatch_eq_absorb, dispatch_eq_absorb, heffect]
  exact appendAlike_absorb first second _

/-- An opcode does alike in sessions that agree. -/
lemma Agree.execute (h : Agree first second) (op : Opcode) :
    AppendAlike first second (first.execute op) (second.execute op) :=
  -- an opcode is executed as the name of it is dispatched
  h.dispatch (.word op)

/-- A line takes sessions that agree to sessions that are the same. -/
lemma Agree.enter (h : Agree first second) (line : String) :
    Same (first.enter line) (second.enter line) := by
  have hrun : first.runLine line = second.runLine line := by
    rw [runLine, runLine, h.stack_eq, Vocabulary.run_congr h.meaning?_eq]
  cases hstop : (second.runLine line).stop? with
  | none =>
    rw [enter_of_none hstop, enter_of_none (hrun ▸ hstop), hrun]
    exact ⟨⟨h.meaning?_eq, rfl⟩, rfl, rfl⟩
  | some stop =>
    rw [enter_of_stop hstop, enter_of_stop (hrun ▸ hstop), hrun]
    exact ⟨⟨h.meaning?_eq, rfl⟩, rfl, rfl⟩

namespace AppendAlike

variable {done done' : Option Diagnostic × Session}

/-- What is alike keeps sessions that agree in agreement. -/
lemma agree (h : AppendAlike first second done done') (hagree : Agree first second) :
    done.1 = done'.1 ∧ Agree done.2 done'.2 := by
  obtain ⟨result, stack, appended, rfl, rfl⟩ := h
  exact ⟨rfl, hagree.meaning?_eq, rfl⟩

/-- What is alike keeps sessions that are the same the same. -/
lemma same (h : AppendAlike first second done done') (hsame : Same first second) :
    done.1 = done'.1 ∧ Same done.2 done'.2 := by
  obtain ⟨result, stack, appended, rfl, rfl⟩ := h
  exact ⟨rfl, ⟨hsame.meaning?_eq, rfl⟩, congrArg (· ++ appended) hsame.output_eq,
    hsame.lastError?_eq⟩

end AppendAlike

/-- A call has the same result in sessions that agree, and they go on to agree. -/
lemma Agree.call (h : Agree first second) (request : Call) :
    (first.call request).1 = (second.call request).1 ∧
      Agree (first.call request).2 (second.call request).2 := by
  cases request with
  | line text => exact ⟨(h.enter text).lastError?_eq, (h.enter text).toAgree⟩
  | dispatch token => exact (h.dispatch token).agree h
  | execute op => exact (h.execute op).agree h

/-- A call has the same result in sessions that are the same, and they stay the same. -/
lemma Same.call (h : Same first second) (request : Call) :
    (first.call request).1 = (second.call request).1 ∧
      Same (first.call request).2 (second.call request).2 := by
  cases request with
  | line text => exact ⟨(h.enter text).lastError?_eq, h.enter text⟩
  | dispatch token => exact (h.toAgree.dispatch token).same h
  | execute op => exact (h.toAgree.execute op).same h

/-- No call changes the vocabulary. -/
lemma vocabulary_call (session : Session) (request : Call) :
    (session.call request).2.vocabulary = session.vocabulary := by
  cases request with
  | line text => exact vocabulary_enter session text
  | dispatch token => exact vocabulary_dispatch session token
  | execute op => exact vocabulary_dispatch session (.word op)

/-! ### Lists of calls -/

/-- A relation that every call keeps, with the same result on both sides, is kept by all of them. -/
lemma forall₂_calls {relation : Session → Session → Prop}
    (hcall : ∀ {first second : Session}, relation first second → ∀ request : Call,
      (first.call request).1 = (second.call request).1 ∧
        relation (first.call request).2 (second.call request).2)
    (h : relation first second) (requests : List Call) :
    List.Forall₂ (fun step step' => step.1 = step'.1 ∧ relation step.2 step'.2)
      (first.calls requests) (second.calls requests) := by
  induction requests generalizing first second with
  | nil => exact .nil
  | cons request rest ih => exact .cons (hcall h request) (ih (hcall h request).2)

/-- No list of calls changes the vocabulary. -/
lemma vocabulary_of_mem_calls {session : Session} {requests : List Call}
    {step : Option Diagnostic × Session} (h : step ∈ session.calls requests) :
    step.2.vocabulary = session.vocabulary := by
  induction requests generalizing session with
  | nil => cases h
  | cons request rest ih =>
    rcases List.mem_cons.1 h with rfl | hrest
    · exact vocabulary_call session request
    · rw [ih hrest, vocabulary_call]

/-- Only the stack carries over between lines.  Let two sessions agree on vocabulary and stack, and
differ in anything else.  Every line displays the same text in both and leaves them the same.  Every
token and every opcode has the same result in both, gives them the same stack and adds the same text
to what each has displayed; it changes neither the vocabulary nor the error that is kept.  So through
any list of calls the vocabulary stays, the results are the same and the sessions go on to agree,
and from the first line on they are the same. -/
theorem only_stack_carries_over (first second : Session) (h : Agree first second) :
    (∀ line, (first.executeLine line).1 = (second.executeLine line).1 ∧
        Same (first.executeLine line).2 (second.executeLine line).2) ∧
      (∀ token, AppendAlike first second (first.dispatch token) (second.dispatch token)) ∧
      (∀ op, AppendAlike first second (first.execute op) (second.execute op)) ∧
      ∀ requests,
        (∀ step ∈ first.calls requests, step.2.vocabulary = first.vocabulary) ∧
        List.Forall₂ (fun step step' => step.1 = step'.1 ∧ Agree step.2 step'.2)
          (first.calls requests) (second.calls requests) ∧
        ∀ line, List.Forall₂ (fun step step' => step.1 = step'.1 ∧ Same step.2 step'.2)
          (first.calls (.line line :: requests)) (second.calls (.line line :: requests)) := by
  refine ⟨?_, h.dispatch, h.execute, ?_⟩
  · intro line
    exact ⟨(h.enter line).output_eq, h.enter line⟩
  · intro requests
    refine ⟨fun step hstep => vocabulary_of_mem_calls hstep, forall₂_calls Agree.call h requests, ?_⟩
    intro line
    exact .cons ⟨(h.enter line).lastError?_eq, h.enter line⟩
      (forall₂_calls Same.call (h.enter line) requests)

/-- The first session has just failed and keeps the error; the second one has displayed nothing, and
its vocabulary was made by one insertion more.  Both have the value 7. -/
theorem only_stack_carries_over_after_failure :
    Agree (enter {} "7 +")
        (Session.dispatch { vocabulary := Vocabulary.standard.insert .dup .dup } (.number 7)).2 ∧
      (enter {} "7 +").output = "Stack underflow" ∧
      ((enter {} "7 +").executeLine "DUP * . nope").1 =
        ((Session.dispatch { vocabulary := Vocabulary.standard.insert .dup .dup }
          (.number 7)).2.executeLine "DUP * . nope").1 ∧
      Same ((enter {} "7 +").executeLine "DUP * . nope").2
        ((Session.dispatch { vocabulary := Vocabulary.standard.insert .dup .dup }
          (.number 7)).2.executeLine "DUP * . nope").2 := by
  have hagree : Agree (enter {} "7 +")
      (Session.dispatch { vocabulary := Vocabulary.standard.insert .dup .dup } (.number 7)).2 := by
    refine ⟨fun op => ?_, by cbv⟩
    rw [vocabulary_enter]
    cases op <;> rfl
  obtain ⟨htext, hsame⟩ := (only_stack_carries_over _ _ hagree).1 "DUP * . nope"
  exact ⟨hagree, by cbv, htext, hsame⟩

end Session

end StackLang
