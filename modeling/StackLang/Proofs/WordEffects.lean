import Mathlib
import StackLang.Run

/-!
# Effects of single words

What the sixteen built-in words are meant to do is written down in one relation,
`Opcode.Performs known op before after text`: on the stack `before` the word `op` leaves the stack
`after` and prints `text`.  Stacks are listed bottom first here, as in the pictures
`( before -- after )`, and `lower` is the part of a stack that a word does not touch.

A word can end in three ways (`Opcode.performs_or_fails`).  It performs; or there are fewer values
than its `arity`; or it is a division by zero.  For each of them one lemma follows the steps of the
code and says what these leave of the whole session: `Opcode.Performs.behavior_eq`,
`Opcode.behavior_of_size_lt` and `Opcode.behavior_slash_of_zero`.  What a word does in any larger
setting can be read off these three, without opening its code again.  The first thing read off is
that a word acts on a session through its effect only (`Opcode.perform_behavior`).
-/

namespace StackLang

/-! ## The documented effects -/

namespace Opcode

/-- The number of values that a word needs on the stack. -/
def arity : Opcode → Nat
  | .plus | .minus | .star | .slash | .swap | .over => 2
  | .negate | .abs | .dot | .drop | .dup => 1
  | .rot => 3
  | .dotS | .depth | .words | .clear => 0

/-- What a word does on a stack on which it succeeds: the stack before it, the stack after it, and
the text that it prints.  The `known` words are those that `words` lists. -/
inductive Performs (known : List String) : Opcode → List ℚ → List ℚ → String → Prop
  | plus (lower : List ℚ) (b a : ℚ) :
      Performs known .plus (lower ++ [b, a]) (lower ++ [b + a]) ""
  | minus (lower : List ℚ) (b a : ℚ) :
      Performs known .minus (lower ++ [b, a]) (lower ++ [b - a]) ""
  | star (lower : List ℚ) (b a : ℚ) :
      Performs known .star (lower ++ [b, a]) (lower ++ [b * a]) ""
  | slash (lower : List ℚ) (b a : ℚ) (ha : a ≠ 0) :
      Performs known .slash (lower ++ [b, a]) (lower ++ [b / a]) ""
  | negate (lower : List ℚ) (a : ℚ) :
      Performs known .negate (lower ++ [a]) (lower ++ [-a]) ""
  | abs (lower : List ℚ) (a : ℚ) :
      Performs known .abs (lower ++ [a]) (lower ++ [|a|]) ""
  | dot (lower : List ℚ) (a : ℚ) :
      Performs known .dot (lower ++ [a]) lower (Value.text a ++ " ")
  | dotS (all : List ℚ) :
      Performs known .dotS all all ((Stack.ofList all).render Value.text)
  | depth (all : List ℚ) :
      Performs known .depth all (all ++ [(all.length : ℚ)]) ""
  | words (all : List ℚ) :
      Performs known .words all all (String.intercalate " " known ++ " ")
  | dup (lower : List ℚ) (a : ℚ) :
      Performs known .dup (lower ++ [a]) (lower ++ [a, a]) ""
  | drop (lower : List ℚ) (a : ℚ) :
      Performs known .drop (lower ++ [a]) lower ""
  | swap (lower : List ℚ) (a b : ℚ) :
      Performs known .swap (lower ++ [a, b]) (lower ++ [b, a]) ""
  | «over» (lower : List ℚ) (a b : ℚ) :
      Performs known .over (lower ++ [a, b]) (lower ++ [a, b, a]) ""
  | rot (lower : List ℚ) (a b c : ℚ) :
      Performs known .rot (lower ++ [a, b, c]) (lower ++ [b, c, a]) ""
  | clear (all : List ℚ) :
      Performs known .clear all [] ""

end Opcode

/-! ## Stacks as lists of values -/

namespace Stack

variable {α : Type*}

/-- Items behind a list are pushed one after the other. -/
lemma ofList_append (lower items : List α) :
    ofList (lower ++ items) = (ofList lower).pushAll items := by
  rw [← toList_inj]
  simp

/-- The last value of a list lies on top. -/
lemma top?_ofList_concat (lower : List α) (a : α) : (ofList (lower ++ [a])).top? = some a := by
  simp [ofList, top?]

/-- A stack that is deep enough ends with as many items as are asked for. -/
lemma exists_toList_eq_append {s : Stack α} {count : Nat} (h : count ≤ s.size) :
    ∃ lower operands, s.toList = lower ++ operands ∧ operands.length = count := by
  refine ⟨s.toList.take (s.size - count), s.toList.drop (s.size - count), ?_, ?_⟩
  · rw [List.take_append_drop]
  · rw [List.length_drop, length_toList]
    omega

/-- A stack whose list ends with some items is one onto which these were pushed. -/
lemma eq_pushAll_of_toList {s : Stack α} {lower items : List α} (h : s.toList = lower ++ items) :
    s = (ofList lower).pushAll items := by
  rw [← ofList_append, ← h, ofList_toList]

end Stack

/-! ## The code of the words, step by step -/

/-- The magnitude of a value is its absolute value. -/
lemma UnaryOp.apply_magnitude (x : ℚ) : magnitude.apply x = |x| := by
  show Rat.abs x = |x|
  rcases le_total 0 x with hx | hx
  · rw [abs_of_nonneg hx, Rat.abs_of_nonneg hx]
  · rw [abs_of_nonpos hx, Rat.abs_of_nonpos hx]

/-- Work on the stack leaves the rest of the session as it was. -/
lemma Session.onStack_of_eq {α : Type} {routine : Routine (Stack Value) α} {session : Session}
    {result : Except Diagnostic α} {after : Stack Value}
    (h : routine session.stack = (result, after)) :
    onStack routine session = (result, { session with stack := after }) := by
  simp only [onStack, Routine.onPart, h]

/-- A word whose first step fails on the stack without changing it has changed nothing. -/
lemma Session.bind_onStack_of_error {α : Type} {routine : Routine (Stack Value) α}
    {session : Session} {d : Diagnostic} (h : routine session.stack = (.error d, session.stack))
    (next : α → Behavior) : (onStack routine >>= next) session = (.error d, session) :=
  Routine.bind_of_error (onStack_of_eq h) next

namespace Behavior

open Session

variable {session : Session} {rest : Stack Value} {a b c : Value}

/-- Taking the topmost value off, as the first step of a word. -/
lemma onStack_pop (hs : session.stack = rest.push a) :
    onStack Stack.pop session = (.ok a, { session with stack := rest }) :=
  onStack_of_eq (by rw [hs, Stack.pop_push])

/-- Taking two values off, as the first step of a word. -/
lemma onStack_popTwo (hs : session.stack = (rest.push b).push a) :
    onStack Stack.popTwo session = (.ok (b, a), { session with stack := rest }) :=
  onStack_of_eq (by rw [hs, Stack.popTwo_push_push])

/-- The topmost value is replaced by its image. -/
lemma unary_eq (op : UnaryOp) (hs : session.stack = rest.push a) :
    unary op session = (.ok (), { session with stack := rest.push (op.apply a) }) :=
  Routine.bind_of_ok (onStack_pop hs) _

/-- Two values with a result are replaced by it. -/
lemma binary_of_ok {op : BinaryOp} (hs : session.stack = (rest.push b).push a)
    (hop : op.apply b a = .ok c) :
    binary op session = (.ok (), { session with stack := rest.push c }) := by
  have hresult : Routine.reading (fun _ => op.apply b a) { session with stack := rest } =
      (.ok c, { session with stack := rest }) := by rw [Routine.reading, hop]
  rw [binary, Routine.bind_of_ok (onStack_popTwo hs)]
  exact Routine.bind_of_ok hresult _

/-- Two values without a result are gone when the operation fails. -/
lemma binary_of_error {op : BinaryOp} {d : Diagnostic} (hs : session.stack = (rest.push b).push a)
    (hop : op.apply b a = .error d) :
    binary op session = (.error d, { session with stack := rest }) := by
  have hresult : Routine.reading (fun _ => op.apply b a) { session with stack := rest } =
      (.error d, { session with stack := rest }) := by rw [Routine.reading, hop]
  rw [binary, Routine.bind_of_ok (onStack_popTwo hs)]
  exact Routine.bind_of_error hresult _

/-- `( a -- )`, printing `a`. -/
lemma dot_eq (hs : session.stack = rest.push a) :
    dot session = (.ok (),
      { session with stack := rest, output := session.output ++ (a.text ++ " ") }) :=
  Routine.bind_of_ok (onStack_pop hs) _

/-- `( a -- a a )` for a value below no others, and `( a b -- a b a )` for one below another. -/
lemma copy_eq (upper : List Value) (hs : session.stack = (rest.push a).pushAll upper) :
    copy upper.length session =
      (.ok (), { session with stack := (rest.push a).pushAll (upper ++ [a]) }) := by
  have hpeek : session.stack.peek upper.length = .ok a := by rw [hs, Stack.peek_pushAll]
  have hpush : (rest.push a).pushAll (upper ++ [a]) = session.stack.push a := by
    rw [hs, ← Stack.toList_inj]
    simp
  rw [hpush]
  exact Routine.bind_of_ok (by rw [Routine.reading, hpeek]) _

/-- There is nothing to copy from below the bottom. -/
lemma copy_of_size_le {depth : Nat} (h : session.stack.size ≤ depth) :
    copy depth session = (.error (.raise .stackUnderflow), session) :=
  Routine.bind_of_error (by rw [Routine.reading, Stack.peek_of_size_le h]) _

/-- `( a -- )` -/
lemma drop_eq (hs : session.stack = rest.push a) :
    drop session = (.ok (), { session with stack := rest }) :=
  Routine.bind_of_ok (onStack_pop hs) _

/-- `( a b -- b a )` -/
lemma swap_eq (hs : session.stack = (rest.push a).push b) :
    swap session = (.ok (), { session with stack := (rest.push b).push a }) := by
  rw [swap, Routine.bind_of_ok (onStack_popTwo hs)]
  rfl

/-- `( a b c -- b c a )` -/
lemma rot_eq (hs : session.stack = rest.pushAll [a, b, c]) :
    rot session = (.ok (), { session with stack := rest.pushAll [b, c, a] }) := by
  have hpop : onStack (Stack.popMany 3) session =
      (.ok [a, b, c], { session with stack := rest }) :=
    onStack_of_eq (by rw [hs]; exact Stack.popMany_pushAll rest [a, b, c])
  exact Routine.bind_of_ok hpop _

end Behavior

namespace Opcode

variable {op : Opcode} {session : Session} {known : List String} {before after lower : List ℚ}
  {text : String}

/-! ## The three ways in which a word can end -/

/-- A word that performs changes the stack and adds to the output as it should, and changes nothing
else of the session. -/
lemma Performs.behavior_eq
    (h : op.Performs session.vocabulary.spellings session.stack.toList after text) :
    op.behavior session =
      (.ok (), { session with stack := .ofList after, output := session.output ++ text }) := by
  generalize hbefore : session.stack.toList = before at h
  cases h with
  | plus lower b a =>
    rw [String.append_empty, Stack.ofList_append]
    exact Behavior.binary_of_ok (Stack.eq_pushAll_of_toList hbefore) rfl
  | minus lower b a =>
    rw [String.append_empty, Stack.ofList_append]
    exact Behavior.binary_of_ok (Stack.eq_pushAll_of_toList hbefore) rfl
  | star lower b a =>
    rw [String.append_empty, Stack.ofList_append]
    exact Behavior.binary_of_ok (Stack.eq_pushAll_of_toList hbefore) rfl
  | slash lower b a ha =>
    rw [String.append_empty, Stack.ofList_append]
    exact Behavior.binary_of_ok (Stack.eq_pushAll_of_toList hbefore)
      (BinaryOp.apply_quotient_of_ne_zero b ha)
  | negate lower a =>
    rw [String.append_empty, Stack.ofList_append]
    exact Behavior.unary_eq .negate (Stack.eq_pushAll_of_toList hbefore)
  | abs lower a =>
    rw [String.append_empty, Stack.ofList_append, ← UnaryOp.apply_magnitude]
    exact Behavior.unary_eq .magnitude (Stack.eq_pushAll_of_toList hbefore)
  | dot lower a => exact Behavior.dot_eq (Stack.eq_pushAll_of_toList hbefore)
  | dotS all =>
    rw [← hbefore, Stack.ofList_toList]
    rfl
  | depth all =>
    have hsize : Value.ofInt session.stack.size = (before.length : ℚ) := by
      rw [← Stack.length_toList, hbefore]
      exact Int.cast_natCast before.length
    rw [String.append_empty, Stack.ofList_append, ← hsize, ← hbefore, Stack.ofList_toList]
    rfl
  | words all =>
    rw [← hbefore, Stack.ofList_toList]
    rfl
  | dup lower a =>
    rw [String.append_empty, Stack.ofList_append]
    exact Behavior.copy_eq [] (Stack.eq_pushAll_of_toList hbefore)
  | drop lower a =>
    rw [String.append_empty]
    exact Behavior.drop_eq (Stack.eq_pushAll_of_toList hbefore)
  | swap lower a b =>
    rw [String.append_empty, Stack.ofList_append]
    exact Behavior.swap_eq (Stack.eq_pushAll_of_toList hbefore)
  | «over» lower a b =>
    rw [String.append_empty, Stack.ofList_append]
    exact Behavior.copy_eq [b] (Stack.eq_pushAll_of_toList hbefore)
  | rot lower a b c =>
    rw [String.append_empty, Stack.ofList_append]
    exact Behavior.rot_eq (Stack.eq_pushAll_of_toList hbefore)
  | clear all =>
    rw [String.append_empty]
    rfl

/-- A word that finds too few values fails at its first step, which has changed nothing. -/
lemma behavior_of_size_lt (h : session.stack.size < op.arity) :
    op.behavior session = (.error (.raise .stackUnderflow), session) := by
  cases op with
  | plus => exact Session.bind_onStack_of_error (Stack.popTwo_of_size_lt h) _
  | minus => exact Session.bind_onStack_of_error (Stack.popTwo_of_size_lt h) _
  | star => exact Session.bind_onStack_of_error (Stack.popTwo_of_size_lt h) _
  | slash => exact Session.bind_onStack_of_error (Stack.popTwo_of_size_lt h) _
  | negate => exact Session.bind_onStack_of_error (Stack.pop_of_size_lt h) _
  | abs => exact Session.bind_onStack_of_error (Stack.pop_of_size_lt h) _
  | dot => exact Session.bind_onStack_of_error (Stack.pop_of_size_lt h) _
  | dotS => exact absurd h (Nat.not_lt_zero _)
  | depth => exact absurd h (Nat.not_lt_zero _)
  | words => exact absurd h (Nat.not_lt_zero _)
  | dup => exact Behavior.copy_of_size_le (Nat.le_of_lt_succ h)
  | drop => exact Session.bind_onStack_of_error (Stack.pop_of_size_lt h) _
  | swap => exact Session.bind_onStack_of_error (Stack.popTwo_of_size_lt h) _
  | «over» => exact Behavior.copy_of_size_le (Nat.le_of_lt_succ h)
  | rot => exact Session.bind_onStack_of_error (Stack.popMany_of_size_lt h) _
  | clear => exact absurd h (Nat.not_lt_zero _)

/-- A division by zero fails when its operands are gone. -/
lemma behavior_slash_of_zero {b : ℚ} (h : session.stack.toList = lower ++ [b, 0]) :
    slash.behavior session =
      (.error (.raise .divisionByZero), { session with stack := .ofList lower }) :=
  Behavior.binary_of_error (Stack.eq_pushAll_of_toList h) (BinaryOp.apply_quotient_zero b)

/-- A word performs only where it finds enough values. -/
lemma Performs.arity_le (h : op.Performs known before after text) : op.arity ≤ before.length := by
  cases h <;> simp [arity]

/-- A division performs only where the topmost value is not zero. -/
lemma Performs.top?_ne_zero (h : Performs known .slash before after text) :
    (Stack.ofList before).top? ≠ some 0 := by
  cases h with
  | slash lower b a ha =>
    rw [List.append_cons, Stack.top?_ofList_concat]
    intro hzero
    exact ha (Option.some.inj hzero)

/-- A word on a stack that is deep enough performs or divides by zero. -/
lemma performs_or_divides_by_zero {op : Opcode} {s : Stack Value} (h : op.arity ≤ s.size)
    (known : List String) :
    (∃ after text, op.Performs known s.toList after text) ∨
      op = slash ∧ ∃ lower b, s.toList = lower ++ [b, 0] := by
  obtain ⟨lower, operands, hs, hlen⟩ := Stack.exists_toList_eq_append h
  rw [hs]
  cases op with
  | slash =>
    obtain ⟨b, a, rfl⟩ := List.length_eq_two.1 hlen
    by_cases ha : a = 0
    · exact Or.inr ⟨rfl, lower, b, by rw [ha]⟩
    · exact Or.inl ⟨_, _, .slash lower b a ha⟩
  | plus =>
    obtain ⟨b, a, rfl⟩ := List.length_eq_two.1 hlen
    exact Or.inl ⟨_, _, .plus lower b a⟩
  | minus =>
    obtain ⟨b, a, rfl⟩ := List.length_eq_two.1 hlen
    exact Or.inl ⟨_, _, .minus lower b a⟩
  | star =>
    obtain ⟨b, a, rfl⟩ := List.length_eq_two.1 hlen
    exact Or.inl ⟨_, _, .star lower b a⟩
  | swap =>
    obtain ⟨a, b, rfl⟩ := List.length_eq_two.1 hlen
    exact Or.inl ⟨_, _, .swap lower a b⟩
  | «over» =>
    obtain ⟨a, b, rfl⟩ := List.length_eq_two.1 hlen
    exact Or.inl ⟨_, _, .over lower a b⟩
  | negate =>
    obtain ⟨a, rfl⟩ := List.length_eq_one_iff.1 hlen
    exact Or.inl ⟨_, _, .negate lower a⟩
  | abs =>
    obtain ⟨a, rfl⟩ := List.length_eq_one_iff.1 hlen
    exact Or.inl ⟨_, _, .abs lower a⟩
  | dot =>
    obtain ⟨a, rfl⟩ := List.length_eq_one_iff.1 hlen
    exact Or.inl ⟨_, _, .dot lower a⟩
  | dup =>
    obtain ⟨a, rfl⟩ := List.length_eq_one_iff.1 hlen
    exact Or.inl ⟨_, _, .dup lower a⟩
  | drop =>
    obtain ⟨a, rfl⟩ := List.length_eq_one_iff.1 hlen
    exact Or.inl ⟨_, _, .drop lower a⟩
  | rot =>
    obtain ⟨a, b, c, rfl⟩ := List.length_eq_three.1 hlen
    exact Or.inl ⟨_, _, .rot lower a b c⟩
  | dotS => exact Or.inl ⟨_, _, .dotS _⟩
  | depth => exact Or.inl ⟨_, _, .depth _⟩
  | words => exact Or.inl ⟨_, _, .words _⟩
  | clear => exact Or.inl ⟨_, _, .clear _⟩

/-- A word performs, finds too few values, or divides by zero. -/
lemma performs_or_fails (op : Opcode) (known : List String) (s : Stack Value) :
    (∃ after text, op.Performs known s.toList after text) ∨ s.size < op.arity ∨
      op = slash ∧ ∃ lower b, s.toList = lower ++ [b, 0] := by
  rcases Nat.lt_or_ge s.size op.arity with hlt | hle
  · exact Or.inr (Or.inl hlt)
  · rcases performs_or_divides_by_zero hle known with hperforms | hzero
    · exact Or.inl hperforms
    · exact Or.inr (Or.inr hzero)

/-! ## Effects -/

section Effect

variable {v : Vocabulary} {s : Stack Value}

/-- The effect of a word on a stack on which it performs. -/
lemma Performs.effect_eq (h : op.Performs v.spellings s.toList after text) :
    op.effect v s = ⟨.ofList after, text, none⟩ := by
  have hbehavior : op.behavior { vocabulary := v, stack := s } =
      (.ok (), { vocabulary := v, stack := .ofList after, output := "" ++ text }) :=
    Performs.behavior_eq h
  simp only [effect, Routine.perform_of_ok hbehavior, String.empty_append]

/-- A word that finds too few values fails and changes nothing. -/
lemma effect_of_size_lt (h : s.size < op.arity) (v : Vocabulary) :
    op.effect v s = Effect.failure s (.raise .stackUnderflow) := by
  have hbehavior : op.behavior { vocabulary := v, stack := s } =
      (.error (.raise .stackUnderflow), { vocabulary := v, stack := s }) :=
    behavior_of_size_lt h
  simp only [effect, Routine.perform_of_error hbehavior, Effect.failure]

/-- A division by zero takes its operands off and fails. -/
lemma effect_slash_of_zero {b : ℚ} (h : s.toList = lower ++ [b, 0]) (v : Vocabulary) :
    slash.effect v s = Effect.failure (.ofList lower) (.raise .divisionByZero) := by
  have hbehavior : slash.behavior { vocabulary := v, stack := s } =
      (.error (.raise .divisionByZero), { vocabulary := v, stack := .ofList lower }) :=
    behavior_slash_of_zero h
  simp only [effect, Routine.perform_of_error hbehavior, Effect.failure]

end Effect

end Opcode

/-- A failure that keeps the stack keeps the whole session. -/
lemma Session.absorb_failure (session : Session) (d : Diagnostic) :
    session.absorb (.failure session.stack d) = session := by
  simp [absorb, Effect.failure]

/-- The code of a word acts on a session through its effect: what it does depends on the vocabulary
and the stack only, and it changes the stack, adds to the output and changes nothing else. -/
theorem Opcode.perform_behavior (op : Opcode) (session : Session) :
    op.behavior.perform session =
      ((op.effect session.vocabulary session.stack).error?,
        session.absorb (op.effect session.vocabulary session.stack)) := by
  rcases op.performs_or_fails session.vocabulary.spellings session.stack with
    ⟨after, text, hperforms⟩ | hlt | ⟨rfl, lower, b, hs⟩
  · rw [hperforms.effect_eq, Routine.perform_of_ok hperforms.behavior_eq]
    rfl
  · rw [effect_of_size_lt hlt, Routine.perform_of_error (behavior_of_size_lt hlt),
      Session.absorb_failure]
    rfl
  · rw [effect_slash_of_zero hs, Routine.perform_of_error (behavior_slash_of_zero hs)]
    simp [Session.absorb, Effect.failure]

end StackLang
