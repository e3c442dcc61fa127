import Mathlib
import StackLang.Proofs.PostfixArithmetic

/-!
# Stack effects

Every word has the effect that is documented for it, in a session as a whole: where it performs, the
stack and the output change as `Opcode.Performs` says and nothing else changes; where it finds too
few values nothing changes at all; and a division by zero leaves the session without the two
operands.  Words that have no meaning and tokens that are no words change nothing either.
-/

namespace StackLang

namespace Opcode

/-- No built-in meaning fails as an undefined word. -/
lemma fault_effect_ne_undefinedWord {op : Opcode} {v : Vocabulary} {s : Stack Value}
    {d : Diagnostic} (h : (op.effect v s).error? = some d) : d.fault ≠ .undefinedWord := by
  rcases op.performs_or_fails v.spellings s with ⟨after, text, hperforms⟩ | hlt | ⟨rfl, lower, b, hs⟩
  · rw [hperforms.effect_eq] at h
    cases h
  · rw [effect_of_size_lt hlt] at h
    obtain rfl : Diagnostic.raise .stackUnderflow = d := Option.some.inj h
    exact Fault.noConfusion
  · rw [effect_slash_of_zero hs] at h
    obtain rfl : Diagnostic.raise .divisionByZero = d := Option.some.inj h
    exact Fault.noConfusion

end Opcode

/-! ## Words in a session -/

namespace Vocabulary

/-- An opcode without a meaning fails and changes nothing. -/
lemma execute_of_contains_eq_false {v : Vocabulary} {op : Opcode} (h : v.contains op = false)
    (s : Stack Value) : v.execute op s = Effect.failure s (.raise .undefinedWord) := by
  have hnone : v.meaning? op = none := by simpa [contains] using h
  simp only [execute, hnone]

/-- An opcode with a meaning never fails as an undefined word. -/
lemma fault_execute_ne_undefinedWord {v : Vocabulary} {op : Opcode} (h : v.contains op = true)
    {s : Stack Value} {d : Diagnostic} (hd : (v.execute op s).error? = some d) :
    d.fault ≠ .undefinedWord := by
  obtain ⟨meaning, hmeaning⟩ := Option.isSome_iff_exists.1 h
  simp only [execute, hmeaning] at hd
  exact Opcode.fault_effect_ne_undefinedWord hd

end Vocabulary

namespace Session

/-- An opcode without a meaning leaves the session as it was. -/
lemma execute_of_contains_eq_false {session : Session} {op : Opcode}
    (h : session.vocabulary.contains op = false) :
    session.execute op = (some (.raise .undefinedWord), session) := by
  have hnone : session.vocabulary.meaning? op = none := by simpa [Vocabulary.contains] using h
  simp only [execute, hnone]

section Standard

variable {session : Session} {op : Opcode}

/-- In a standard vocabulary an opcode runs its own code. -/
lemma execute_eq_perform (hstandard : session.vocabulary.IsStandard) (op : Opcode) :
    session.execute op = op.behavior.perform session := by
  simp only [execute, hstandard op]

/-- An opcode that performs changes the stack and adds to the output, and changes nothing else. -/
lemma execute_of_performs (hstandard : session.vocabulary.IsStandard) {after : List ℚ}
    {text : String} (h : op.Performs session.vocabulary.spellings session.stack.toList after text) :
    session.execute op =
      (none, { session with stack := .ofList after, output := session.output ++ text }) := by
  rw [execute_eq_perform hstandard, Routine.perform_of_ok h.behavior_eq]

/-- An opcode that finds too few values leaves the session as it was. -/
lemma execute_of_size_lt (hstandard : session.vocabulary.IsStandard)
    (h : session.stack.size < op.arity) :
    session.execute op = (some (.raise .stackUnderflow), session) := by
  rw [execute_eq_perform hstandard, Routine.perform_of_error (Opcode.behavior_of_size_lt h)]

/-- A division by zero leaves the session without its two operands. -/
lemma execute_slash_of_zero (hstandard : session.vocabulary.IsStandard) {lower : List ℚ} {b : ℚ}
    (h : session.stack.toList = lower ++ [b, 0]) :
    session.execute .slash =
      (some (.raise .divisionByZero), { session with stack := .ofList lower }) := by
  rw [execute_eq_perform hstandard, Routine.perform_of_error (Opcode.behavior_slash_of_zero h)]

/-- An opcode succeeds exactly when there are enough values and it is not a division by zero. -/
lemma execute_eq_none_iff (hstandard : session.vocabulary.IsStandard) :
    (session.execute op).1 = none ↔
      op.arity ≤ session.stack.size ∧ (op = .slash → session.stack.top? ≠ some 0) := by
  rcases op.performs_or_fails session.vocabulary.spellings session.stack with
    ⟨after, text, hperforms⟩ | hlt | ⟨rfl, lower, b, hs⟩
  · rw [execute_of_performs hstandard hperforms]
    refine iff_of_true rfl ⟨?_, ?_⟩
    · simpa using hperforms.arity_le
    · rintro rfl
      simpa using hperforms.top?_ne_zero
  · rw [execute_of_size_lt hstandard hlt]
    refine iff_of_false (by simp) ?_
    rintro ⟨harity, -⟩
    omega
  · rw [execute_slash_of_zero hstandard hs]
    refine iff_of_false (by simp) ?_
    rintro ⟨-, htop⟩
    refine htop rfl ?_
    rw [← Stack.ofList_toList session.stack, hs, List.append_cons, Stack.top?_ofList_concat]

/-- An opcode that succeeds has performed, and changed nothing but the stack and the output. -/
lemma exists_performs_of_execute_eq_none (hstandard : session.vocabulary.IsStandard)
    (h : (session.execute op).1 = none) :
    ∃ after text, op.Performs session.vocabulary.spellings session.stack.toList after text ∧
      (session.execute op).2 =
        { session with stack := .ofList after, output := session.output ++ text } := by
  rcases op.performs_or_fails session.vocabulary.spellings session.stack with
    ⟨after, text, hperforms⟩ | hlt | ⟨rfl, lower, b, hs⟩
  · exact ⟨after, text, hperforms, by rw [execute_of_performs hstandard hperforms]⟩
  · rw [execute_of_size_lt hstandard hlt] at h
    cases h
  · rw [execute_slash_of_zero hstandard hs] at h
    cases h

/-- An opcode that fails has changed nothing, or has divided by zero and lost its two operands. -/
lemma execute_eq_some_cases (hstandard : session.vocabulary.IsStandard) {d : Diagnostic}
    (h : (session.execute op).1 = some d) :
    d = .raise .stackUnderflow ∧ session.stack.size < op.arity ∧ (session.execute op).2 = session ∨
      d = .raise .divisionByZero ∧ op = .slash ∧
        ∃ lower b, session.stack.toList = lower ++ [b, 0] ∧
          (session.execute op).2 = { session with stack := .ofList lower } := by
  rcases op.performs_or_fails session.vocabulary.spellings session.stack with
    ⟨after, text, hperforms⟩ | hlt | ⟨rfl, lower, b, hs⟩
  · rw [execute_of_performs hstandard hperforms] at h
    cases h
  · have hexecute := execute_of_size_lt hstandard hlt
    rw [hexecute] at h ⊢
    exact Or.inl ⟨(Option.some.inj h).symm, hlt, rfl⟩
  · have hexecute := execute_slash_of_zero hstandard hs
    rw [hexecute] at h ⊢
    exact Or.inr ⟨(Option.some.inj h).symm, rfl, lower, b, hs, rfl⟩

end Standard

/-- Every word has its documented effect.  In a standard vocabulary an opcode succeeds exactly when
the stack holds as many values as the word needs and the word is not a division by zero; then the
stack and the printed text are those of `Opcode.Performs`, and all else stays.  It fails otherwise,
either for want of values, and then the session is as before, or by a division by zero, and then
exactly the two operands are gone from it.  In whatever vocabulary, an opcode that has a meaning
never fails as an undefined word, and what does fail as one, unknown tokens and opcodes without a
meaning, leaves the session as it was. -/
theorem execute_stack_effect (session : Session) (hstandard : session.vocabulary.IsStandard)
    (op : Opcode) :
    ((session.execute op).1 = none ↔
        op.arity ≤ session.stack.size ∧ (op = .slash → session.stack.top? ≠ some 0)) ∧
      ((session.execute op).1 = none →
        ∃ after text, op.Performs session.vocabulary.spellings session.stack.toList after text ∧
          (session.execute op).2 =
            { session with stack := .ofList after, output := session.output ++ text }) ∧
      (∀ d, (session.execute op).1 = some d →
        d = .raise .stackUnderflow ∧ session.stack.size < op.arity ∧
            (session.execute op).2 = session ∨
          d = .raise .divisionByZero ∧ op = .slash ∧
            ∃ lower b, session.stack.toList = lower ++ [b, 0] ∧
              (session.execute op).2 = { session with stack := .ofList lower }) ∧
      ∀ current : Session,
        (∀ word d, current.vocabulary.contains word = true →
          (current.execute word).1 = some d → d.fault ≠ .undefinedWord) ∧
        (∀ word, current.vocabulary.contains word = false →
          current.execute word = (some (.raise .undefinedWord), current)) ∧
        ∀ text, current.dispatch (.unknown text) = (some (.raise .undefinedWord), current) := by
  refine ⟨execute_eq_none_iff hstandard, exists_performs_of_execute_eq_none hstandard, ?_, ?_⟩
  · intro d hd
    exact execute_eq_some_cases hstandard hd
  · intro current
    refine ⟨?_, ?_, fun _ => rfl⟩
    · intro word d hcontains hd
      rw [execute_eq_absorb] at hd
      exact Vocabulary.fault_execute_ne_undefinedWord hcontains hd
    · intro word hmissing
      exact execute_of_contains_eq_false hmissing

/-- Three values are enough for `rot`, zero on top makes a division fail with both operands lost,
and one value is too few for an addition. -/
theorem execute_stack_effect_seven_five_zero :
    Vocabulary.standard.IsStandard ∧
      (execute { stack := .ofList [7, 5, 0] } .rot).1 = none ∧
      execute { stack := .ofList [7, 5, 0] } .slash =
        (some (.raise .divisionByZero), { stack := .ofList [7] }) ∧
      execute { stack := .ofList [7] } .plus =
        (some (.raise .stackUnderflow), { stack := .ofList [7] }) := by
  have hstandard := Vocabulary.isStandard_standard
  have hzero : (execute { stack := .ofList [7, 5, 0] } .slash).1 =
      some (.raise .divisionByZero) := by decide
  have hfew : (execute { stack := .ofList [7] } .plus).1 = some (.raise .stackUnderflow) := by
    decide
  refine ⟨hstandard, ?_, Prod.ext hzero ?_, Prod.ext hfew ?_⟩
  · exact (execute_stack_effect _ hstandard .rot).1.2 ⟨by decide, by decide⟩
  · rcases (execute_stack_effect _ hstandard .slash).2.2.1 _ hzero with
      ⟨hunderflow, -⟩ | ⟨-, -, lower, b, hs, hafter⟩
    · cases hunderflow
    · have hoperands : [(7 : ℚ)] ++ [5, 0] = lower ++ [b, 0] := hs
      obtain rfl := List.append_inj_left' hoperands rfl
      exact hafter
  · rcases (execute_stack_effect _ hstandard .plus).2.2.1 _ hfew with
      ⟨-, -, hafter⟩ | ⟨hdivision, -⟩
    · exact hafter
    · cases hdivision

end Session

end StackLang
