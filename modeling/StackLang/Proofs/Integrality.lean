import Mathlib
import StackLang.Proofs.CarryOver
import StackLang.Proofs.PrintedValues
import StackLang.Proofs.StatusLines

/-!
# Sessions that never divide

The numbers of a line are integers, and of the sixteen built-in meanings only division leads out of
the integers.  So a session that starts with an empty stack and never executes an opcode with that
meaning has only integers on its stack, whatever else its vocabulary says and however its calls
end.

What counts is what is really executed: words behind one that fails are not.  `Session.executions`
lists the opcodes that a list of calls executes, each with the stack that it finds.  Everything that
a session prints is printed by one of these executions, so the values that are printed are integers
as well.
-/

namespace StackLang

/-! ## Integers among the values -/

namespace Value

/-- The whole numbers among the values. -/
def integers : Subring ℚ := (Int.castRingHom ℚ).range

/-- Integers are integers as values. -/
lemma ofInt_mem_integers (n : ℤ) : ofInt n ∈ integers := ⟨n, rfl⟩

/-- The integers are the values that are recognised as such. -/
lemma mem_integers_iff_isInteger {v : Value} : v ∈ integers ↔ v.isInteger = true := by
  constructor
  · rintro ⟨n, rfl⟩
    exact isInteger_ofInt n
  · intro h
    rw [eq_ofInt_of_isInteger h]
    exact ofInt_mem_integers v.num

/-- The integers are the values with the denominator one. -/
lemma mem_integers_iff_den {v : Value} : v ∈ integers ↔ v.den = 1 := by
  rw [mem_integers_iff_isInteger, isInteger, beq_iff_eq]

/-- The magnitude of an integer is an integer. -/
lemma abs_mem_integers {v : ℚ} (h : v ∈ integers) : |v| ∈ integers := by
  rcases abs_choice v with habs | habs
  · rwa [habs]
  · rw [habs]
    exact neg_mem h

end Value

/-- The numbers of a line are integers. -/
lemma Token.mem_integers_of_mem_ofLine {line : String} {value : Value}
    (h : .number value ∈ ofLine line) : value ∈ Value.integers := by
  obtain ⟨word, -, hdenotes⟩ := exists_denotes_of_mem_ofLine h
  cases hdenotes with
  | number numeral => exact Value.ofInt_mem_integers _

/-- All values on the stack are integers. -/
def Stack.IsIntegral (s : Stack Value) : Prop := ∀ v ∈ s.toList, v ∈ Value.integers

/-- The empty stack holds integers only. -/
lemma Stack.isIntegral_empty : (empty : Stack Value).IsIntegral := List.forall_mem_nil _

/-- A stack of integers stays one when an integer is pushed. -/
lemma Stack.IsIntegral.push {s : Stack Value} (hs : s.IsIntegral) {value : Value}
    (h : value ∈ Value.integers) : (s.push value).IsIntegral := by
  unfold IsIntegral
  rw [toList_push]
  exact List.forall_mem_append.2 ⟨hs, List.forall_mem_singleton.2 h⟩

/-- Unless it divides, a word that performs on integers leaves integers. -/
lemma Opcode.Performs.mem_integers {known : List String} {op : Opcode} {before after : List ℚ}
    {text : String} (h : op.Performs known before after text) (hop : op ≠ .slash)
    (hbefore : ∀ v ∈ before, v ∈ Value.integers) : ∀ v ∈ after, v ∈ Value.integers := by
  -- a word that computes has one result, which lies on values that were there before
  have hresult : ∀ {lower operands : List ℚ} {result : ℚ},
      (∀ v ∈ lower ++ operands, v ∈ Value.integers) → result ∈ Value.integers →
        ∀ v ∈ lower ++ [result], v ∈ Value.integers := by
    intro lower operands result hall hmem
    exact List.forall_mem_append.2
      ⟨(List.forall_mem_append.1 hall).1, List.forall_mem_singleton.2 hmem⟩
  cases h with
  | plus lower b a =>
    exact hresult hbefore (add_mem (hbefore b (by simp)) (hbefore a (by simp)))
  | minus lower b a =>
    exact hresult hbefore (sub_mem (hbefore b (by simp)) (hbefore a (by simp)))
  | star lower b a =>
    exact hresult hbefore (mul_mem (hbefore b (by simp)) (hbefore a (by simp)))
  | slash => exact absurd rfl hop
  | negate lower a => exact hresult hbefore (neg_mem (hbefore a (by simp)))
  | abs lower a => exact hresult hbefore (Value.abs_mem_integers (hbefore a (by simp)))
  | depth all =>
    exact List.forall_mem_append.2
      ⟨hbefore, List.forall_mem_singleton.2 (natCast_mem Value.integers before.length)⟩
  -- the others leave no values but those that they found
  | _ =>
    intro v hv
    exact hbefore v (by grind)

/-! ## Executions -/

/-- An opcode that is executed, and the stack that it finds. -/
structure Execution where
  opcode : Opcode
  stack : Stack Value
  deriving DecidableEq

/-- The execution that a token leads to, if it names an opcode. -/
def Token.executions (token : Token) (s : Stack Value) : List Execution :=
  token.opcode?.toList.map fun op => ⟨op, s⟩

/-- A token is executed on the stack on which it is dispatched. -/
lemma Token.stack_of_mem_executions {token : Token} {s : Stack Value} {e : Execution}
    (h : e ∈ token.executions s) : e.stack = s := by
  obtain ⟨op, -, rfl⟩ := List.mem_map.1 h
  rfl

namespace Vocabulary

/-- The executions in a run of tokens.  Tokens behind one that fails lead to none. -/
def executions (v : Vocabulary) : List Token → Stack Value → List Execution
  | [], _ => []
  | token :: rest, s =>
    let effect := v.dispatch token s
    token.executions s ++
      match effect.error? with
      | some _ => []
      | none => v.executions rest effect.stack

/-- The text that an execution prints. -/
def printedBy (v : Vocabulary) (e : Execution) : String := (v.execute e.opcode e.stack).printed

variable {v : Vocabulary} {token : Token} {tokens : List Token} {s : Stack Value}

/-- A token that fails is the last one that is executed. -/
lemma executions_cons_of_error {d : Diagnostic} (h : (v.dispatch token s).error? = some d) :
    v.executions (token :: tokens) s = token.executions s := by
  simp [executions, h]

/-- The execution of a token that does not fail is followed by those of the rest. -/
lemma executions_cons_of_none (h : (v.dispatch token s).error? = none) :
    v.executions (token :: tokens) s =
      token.executions s ++ v.executions tokens (v.dispatch token s).stack := by
  simp [executions, h]

/-! ### What executions print -/

/-- A token prints what its execution prints, and nothing when there is none. -/
lemma printed_dispatch (v : Vocabulary) (token : Token) (s : Stack Value) :
    (v.dispatch token s).printed = String.join ((token.executions s).map v.printedBy) := by
  cases token with
  | number value => rfl
  | operator op => exact String.empty_append.symm
  | word op => exact String.empty_append.symm
  | unknown text => rfl

/-- A run prints what its executions print, one behind the other. -/
lemma printed_run (v : Vocabulary) (tokens : List Token) (s : Stack Value) :
    (v.run id tokens s).printed = String.join ((v.executions tokens s).map v.printedBy) := by
  induction tokens generalizing s with
  | nil => rfl
  | cons token rest ih =>
    cases herror : (v.dispatch token s).error? with
    | some d =>
      rw [run_cons_of_error herror, executions_cons_of_error herror]
      exact v.printed_dispatch token s
    | none =>
      rw [run_cons_of_none herror, executions_cons_of_none herror, List.map_append,
        String.join_append, ← ih, ← printed_dispatch]
      rfl

/-- An opcode that means `dot` prints the topmost value, if there is one. -/
lemma printedBy_of_dot {e : Execution} (h : v.meaning? e.opcode = some .dot) :
    v.printedBy e = String.join (e.stack.top?.toList.map fun value => value.text ++ " ") := by
  obtain ⟨op, _ | ⟨top, items⟩⟩ := e
  · simp only [printedBy, execute, h]
    rfl
  · simp only [printedBy, execute, h]
    exact String.empty_append.symm

/-- An opcode that means `dotS` prints the whole stack. -/
lemma printedBy_of_dotS {e : Execution} (h : v.meaning? e.opcode = some .dotS) :
    v.printedBy e = e.stack.render Value.text := by
  simp only [printedBy, execute, h]
  rfl

/-! ### Executions on integers -/

/-- An opcode that does not mean division keeps the stack integral, also when it fails. -/
lemma isIntegral_execute {op : Opcode} (hs : s.IsIntegral) (hop : v.meaning? op ≠ some .slash) :
    (v.execute op s).stack.IsIntegral := by
  unfold execute
  split
  · next meaning hmeaning =>
    have hmeaning' : meaning ≠ .slash := by
      rintro rfl
      exact hop hmeaning
    rcases meaning.performs_or_fails v.spellings s with ⟨after, text, hperforms⟩ | hlt | ⟨hdiv, -⟩
    · rw [hperforms.effect_eq]
      unfold Stack.IsIntegral
      rw [Stack.toList_ofList]
      exact hperforms.mem_integers hmeaning' hs
    · rw [Opcode.effect_of_size_lt hlt]
      exact hs
    · exact absurd hdiv hmeaning'
  · exact hs

/-- A token that is no fraction and does not divide keeps the stack integral. -/
lemma isIntegral_dispatch (hs : s.IsIntegral)
    (hnumber : ∀ value, token = .number value → value ∈ Value.integers)
    (hslash : ∀ e ∈ token.executions s, v.meaning? e.opcode ≠ some .slash) :
    (v.dispatch token s).stack.IsIntegral := by
  cases token with
  | number value => exact hs.push (hnumber value rfl)
  | operator op => exact isIntegral_execute hs (hslash ⟨op, s⟩ (List.mem_singleton.2 rfl))
  | word op => exact isIntegral_execute hs (hslash ⟨op, s⟩ (List.mem_singleton.2 rfl))
  | unknown text => exact hs

/-- A run that does not divide finds and leaves integers only, also when it stops. -/
lemma isIntegral_run (hs : s.IsIntegral)
    (hnumbers : ∀ value, .number value ∈ tokens → value ∈ Value.integers)
    (hslash : ∀ e ∈ v.executions tokens s, v.meaning? e.opcode ≠ some .slash) :
    (v.run id tokens s).stack.IsIntegral ∧ ∀ e ∈ v.executions tokens s, e.stack.IsIntegral := by
  induction tokens generalizing s with
  | nil => exact ⟨hs, List.forall_mem_nil _⟩
  | cons token rest ih =>
    have hnumber : ∀ value, token = .number value → value ∈ Value.integers := by
      rintro value rfl
      exact hnumbers value List.mem_cons_self
    have hfound : ∀ e ∈ token.executions s, e.stack.IsIntegral := by
      intro e he
      rwa [Token.stack_of_mem_executions he]
    cases herror : (v.dispatch token s).error? with
    | some d =>
      rw [executions_cons_of_error herror] at hslash ⊢
      rw [run_cons_of_error herror]
      exact ⟨isIntegral_dispatch hs hnumber hslash, hfound⟩
    | none =>
      rw [executions_cons_of_none herror] at hslash ⊢
      rw [run_cons_of_none herror]
      obtain ⟨hfirst, hlater⟩ := List.forall_mem_append.1 hslash
      obtain ⟨hstack, hrest⟩ := ih (isIntegral_dispatch hs hnumber hfirst)
        (fun value hvalue => hnumbers value (List.mem_cons_of_mem token hvalue)) hlater
      exact ⟨hstack, List.forall_mem_append.2 ⟨hfound, hrest⟩⟩

end Vocabulary

/-! ## Sessions -/

namespace Session

/-- The executions that a call leads to. -/
def executionsOf (session : Session) : Call → List Execution
  | .line text => session.vocabulary.executions (Token.ofLine text) session.stack
  | .dispatch token => token.executions session.stack
  | .execute op => [⟨op, session.stack⟩]

/-- The executions that a list of calls leads to. -/
def executions (session : Session) : List Call → List Execution
  | [] => []
  | request :: rest => session.executionsOf request ++ executions (session.call request).2 rest

/-- What the executions of a call print, one behind the other. -/
def printedBy (session : Session) (request : Call) : String :=
  String.join ((session.executionsOf request).map session.vocabulary.printedBy)

/-- The run of a line prints what the executions of the line print. -/
lemma printed_runLine (session : Session) (line : String) :
    (session.runLine line).printed = session.printedBy (.line line) := by
  have hrun := congrArg Run.printed (session.map_token_runLine line)
  exact hrun.trans (session.vocabulary.printed_run _ _)

/-- A token adds what its execution prints to the output. -/
lemma output_dispatch (session : Session) (token : Token) :
    (session.dispatch token).2.output = session.output ++ session.printedBy (.dispatch token) := by
  rw [snd_dispatch, absorb, session.vocabulary.printed_dispatch]
  rfl

/-- An opcode adds what its execution prints to the output. -/
lemma output_execute (session : Session) (op : Opcode) :
    (session.execute op).2.output = session.output ++ session.printedBy (.execute op) :=
  -- an opcode is executed as the name of it is dispatched
  session.output_dispatch (.word op)

variable {session : Session}

/-- A call that does not divide finds and leaves integers only, also when it fails. -/
lemma isIntegral_call {request : Call} (hs : session.stack.IsIntegral)
    (hnumber : ∀ value, request = .dispatch (.number value) → value ∈ Value.integers)
    (hslash : ∀ e ∈ session.executionsOf request,
      session.vocabulary.meaning? e.opcode ≠ some .slash) :
    (session.call request).2.stack.IsIntegral ∧
      ∀ e ∈ session.executionsOf request, e.stack.IsIntegral := by
  cases request with
  | line text =>
    obtain ⟨hstack, hfound⟩ := Vocabulary.isIntegral_run hs
      (fun value => Token.mem_integers_of_mem_ofLine) hslash
    refine ⟨?_, hfound⟩
    rw [← map_token_runLine] at hstack
    rw [call, stack_enter]
    exact hstack
  | dispatch token =>
    rw [call, snd_dispatch]
    refine ⟨Vocabulary.isIntegral_dispatch hs ?_ hslash, ?_⟩
    · rintro value rfl
      exact hnumber value rfl
    · intro e he
      rwa [Token.stack_of_mem_executions he]
  | execute op =>
    have hop := hslash ⟨op, session.stack⟩ (List.mem_singleton.2 rfl)
    rw [call, execute_eq_absorb]
    exact ⟨Vocabulary.isIntegral_execute hs hop, List.forall_mem_singleton.2 hs⟩

/-- Calls that do not divide find and leave integers only. -/
lemma isIntegral_calls {requests : List Call} (hs : session.stack.IsIntegral)
    (hnumbers : ∀ value, .dispatch (.number value) ∈ requests → value ∈ Value.integers)
    (hslash : ∀ e ∈ session.executions requests,
      session.vocabulary.meaning? e.opcode ≠ some .slash) :
    (∀ step ∈ session.calls requests, step.2.stack.IsIntegral) ∧
      ∀ e ∈ session.executions requests, e.stack.IsIntegral := by
  induction requests generalizing session with
  | nil => exact ⟨List.forall_mem_nil _, List.forall_mem_nil _⟩
  | cons request rest ih =>
    obtain ⟨hfirst, hlater⟩ := List.forall_mem_append.1 hslash
    have hnumber : ∀ value, request = .dispatch (.number value) → value ∈ Value.integers := by
      rintro value rfl
      exact hnumbers value List.mem_cons_self
    obtain ⟨hstack, hfound⟩ := isIntegral_call hs hnumber hfirst
    rw [← session.vocabulary_call request] at hlater
    obtain ⟨hsteps, hrest⟩ := ih hstack
      (fun value hvalue => hnumbers value (List.mem_cons_of_mem request hvalue)) hlater
    exact ⟨List.forall_mem_cons.2 ⟨hstack, hsteps⟩, List.forall_mem_append.2 ⟨hfound, hrest⟩⟩

/-- Without division a session stays in the integers.  Let a session start with an empty stack and
any vocabulary, let the numbers that are dispatched to it be integers, and let no opcode that it
executes mean `/`.  Then after every call, whether it failed or not, all values on the stack have
the denominator 1.  The opcodes that mean `dot` and `dotS` print the topmost value and the whole
stack that they find; all values there are written as plain decimals, and these are read back as the
same numbers.  In whatever session, nothing is displayed but what the executions print, with the
status of a line behind it. -/
theorem calls_without_slash_integral (session : Session) (hempty : session.stack = .empty)
    (requests : List Call)
    (hnumbers : ∀ value, .dispatch (.number value) ∈ requests → value.den = 1)
    (hslash : ∀ e ∈ session.executions requests,
      session.vocabulary.meaning? e.opcode ≠ some .slash) :
    (∀ step ∈ session.calls requests, ∀ v ∈ step.2.stack.toList, v.den = 1) ∧
      (∀ e ∈ session.executions requests,
        (session.vocabulary.meaning? e.opcode = some .dot →
          session.vocabulary.printedBy e =
            String.join (e.stack.top?.toList.map fun v => v.text ++ " ")) ∧
        (session.vocabulary.meaning? e.opcode = some .dotS →
          session.vocabulary.printedBy e = e.stack.render Value.text) ∧
        ∀ v ∈ e.stack.toList, v.text = Decimal.write v.num ∧ Token.classify v.text = .number v) ∧
      ∀ current : Session,
        (∀ line, (current.executeLine line).1 =
          current.printedBy (.line line) ++ (current.executeLine line).2.status) ∧
        (∀ token, (current.dispatch token).2.output =
          current.output ++ current.printedBy (.dispatch token)) ∧
        ∀ op, (current.execute op).2.output =
          current.output ++ current.printedBy (.execute op) := by
  have hstart : session.stack.IsIntegral := by
    rw [hempty]
    exact Stack.isIntegral_empty
  obtain ⟨hsteps, hfound⟩ := isIntegral_calls hstart
    (fun value hvalue => Value.mem_integers_iff_den.2 (hnumbers value hvalue)) hslash
  refine ⟨?_, ?_, ?_⟩
  · intro step hstep v hv
    exact Value.mem_integers_iff_den.1 (hsteps step hstep v hv)
  · intro e he
    refine ⟨Vocabulary.printedBy_of_dot, Vocabulary.printedBy_of_dotS, ?_⟩
    intro v hv
    have hinteger := Value.mem_integers_iff_isInteger.1 (hfound e he v hv)
    exact ⟨Value.text_of_isInteger hinteger, Token.classify_text_of_isInteger hinteger⟩
  · intro current
    refine ⟨?_, current.output_dispatch, current.output_execute⟩
    intro line
    rw [← printed_runLine]
    exact current.output_enter_eq_append_status line

/-- Here `words` means division and `/` prints the stack.  The first line fails before it comes to
its `words`, and the last one prints the stack and then fails for want of values. -/
theorem calls_without_slash_integral_renamed_division :
    let session : Session :=
      { vocabulary := (Vocabulary.standard.insert .slash .dotS).insert .words .slash }
    let requests : List Call :=
      [.line "7 nope words", .dispatch (.number (-3)), .execute .star, .line "/ + ."]
    session.stack = .empty ∧
      (∀ value, .dispatch (.number value) ∈ requests → value.den = 1) ∧
      session.executions requests =
        [⟨.star, .ofList [7, -3]⟩, ⟨.slash, .ofList [-21]⟩, ⟨.plus, .ofList [-21]⟩] ∧
      (∀ step ∈ session.calls requests, ∀ v ∈ step.2.stack.toList, v.den = 1) ∧
      session.vocabulary.printedBy ⟨.slash, .ofList [-21]⟩ = "<1> -21 " ∧
      Token.classify (Value.text (-21)) = .number (-21) := by
  intro session requests
  have hnumbers : ∀ value, .dispatch (.number value) ∈ requests → value.den = 1 := by
    simp [requests]
  have hexecutions : session.executions requests =
      [⟨.star, .ofList [7, -3]⟩, ⟨.slash, .ofList [-21]⟩, ⟨.plus, .ofList [-21]⟩] := by cbv
  have hslash : ∀ e ∈ session.executions requests,
      session.vocabulary.meaning? e.opcode ≠ some .slash := by
    rw [hexecutions]
    decide
  obtain ⟨hsteps, hprinted, -⟩ :=
    calls_without_slash_integral session rfl requests hnumbers hslash
  rw [hexecutions] at hprinted
  obtain ⟨-, hdotS, hread⟩ := hprinted ⟨.slash, .ofList [-21]⟩ (by simp)
  exact ⟨rfl, hnumbers, hexecutions, hsteps, (hdotS rfl).trans (by decide),
    (hread (-21) (by decide)).2⟩

end Session

end StackLang
