import StackLang.Effect
import StackLang.Lexeme

/-!
# Runs

Tokens are executed one after the other until one of them fails.  Nothing is undone: the stack of
a stopped run is the one that the failing token left.  The items of a run may be more than bare
tokens, lexemes for instance, and a stopped run names the item at which it stopped.

A run speaks of effects on a stack only.  A session goes through its tokens in the same way, one
dispatch after the other; how its lines can be read off runs is shown in the proofs.
-/

namespace StackLang

universe u

namespace Vocabulary

/-- The effect of an opcode, which fails when the vocabulary gives it no meaning. -/
def execute (v : Vocabulary) (op : Opcode) (s : Stack Value) : Effect :=
  match v.meaning? op with
  | some meaning => meaning.effect v s
  | none => Effect.failure s (.raise .undefinedWord)

/-- The effect of a token. -/
def dispatch (v : Vocabulary) (token : Token) (s : Stack Value) : Effect :=
  match token with
  | .number value => Effect.number s value
  | .operator op => v.execute op s
  | .word op => v.execute op s
  | .unknown _ => Effect.failure s (.raise .undefinedWord)

end Vocabulary

/-- What a run brought about. -/
structure Run (α : Type u) where
  /-- The stack at the end. -/
  stack : Stack Value
  /-- Everything that was printed. -/
  printed : String
  /-- The item at which the run stopped, and why. -/
  stop? : Option (α × Diagnostic)
  deriving DecidableEq

namespace Run

variable {α : Type u}

/-- The run after `first` that continues with `rest`. -/
def andThen (first : Effect) (rest : Run α) : Run α :=
  { rest with printed := first.printed ++ rest.printed }

end Run

/-- Runs the tokens of the items in order, up to and with the first one that fails. -/
def Vocabulary.run {α : Type u} (v : Vocabulary) (tokenOf : α → Token) :
    List α → Stack Value → Run α
  | [], s => ⟨s, "", none⟩
  | item :: rest, s =>
    let effect := v.dispatch (tokenOf item) s
    match effect.error? with
    | some d => ⟨effect.stack, effect.printed, some (item, d)⟩
    | none => Run.andThen effect (v.run tokenOf rest effect.stack)

/-- The run of the words of a line. -/
def Session.runLine (session : Session) (line : String) : Run Lexeme :=
  session.vocabulary.run Lexeme.token (Lexeme.ofLine line) session.stack

namespace Vocabulary

variable {α : Type u}

/-- A run of nothing does nothing. -/
@[simp] theorem run_nil (v : Vocabulary) (tokenOf : α → Token) (s : Stack Value) :
    v.run tokenOf [] s = ⟨s, "", none⟩ := rfl

/-- A run stops at a token that fails. -/
theorem run_cons_of_error {v : Vocabulary} {tokenOf : α → Token} {item : α} {rest : List α}
    {s : Stack Value} {d : Diagnostic} (h : (v.dispatch (tokenOf item) s).error? = some d) :
    v.run tokenOf (item :: rest) s =
      ⟨(v.dispatch (tokenOf item) s).stack, (v.dispatch (tokenOf item) s).printed,
        some (item, d)⟩ := by
  simp [run, h]

/-- A run continues behind a token that does not fail. -/
theorem run_cons_of_none {v : Vocabulary} {tokenOf : α → Token} {item : α} {rest : List α}
    {s : Stack Value} (h : (v.dispatch (tokenOf item) s).error? = none) :
    v.run tokenOf (item :: rest) s =
      Run.andThen (v.dispatch (tokenOf item) s)
        (v.run tokenOf rest (v.dispatch (tokenOf item) s).stack) := by
  simp [run, h]

/-- Items behind a run that stopped are never reached. -/
theorem run_append_of_stop {v : Vocabulary} {tokenOf : α → Token} {first : List α}
    {s : Stack Value} (h : (v.run tokenOf first s).stop? ≠ none) (rest : List α) :
    v.run tokenOf (first ++ rest) s = v.run tokenOf first s := by
  induction first generalizing s with
  | nil => exact absurd rfl h
  | cons item first ih =>
    rw [List.cons_append]
    cases hf : (v.dispatch (tokenOf item) s).error? with
    | some d => rw [run_cons_of_error hf, run_cons_of_error hf]
    | none =>
      rw [run_cons_of_none hf] at h ⊢
      rw [run_cons_of_none hf, ih h]

/-- A run that does not stop is continued by the items behind it, from the stack that it left. -/
theorem run_append_of_none {v : Vocabulary} {tokenOf : α → Token} {first : List α}
    {s : Stack Value} (h : (v.run tokenOf first s).stop? = none) (rest : List α) :
    v.run tokenOf (first ++ rest) s =
      { v.run tokenOf rest (v.run tokenOf first s).stack with
        printed := (v.run tokenOf first s).printed ++
          (v.run tokenOf rest (v.run tokenOf first s).stack).printed } := by
  induction first generalizing s with
  | nil => simp
  | cons item first ih =>
    rw [List.cons_append]
    cases hf : (v.dispatch (tokenOf item) s).error? with
    | some d =>
      rw [run_cons_of_error hf] at h
      cases h
    | none =>
      rw [run_cons_of_none hf] at h ⊢
      rw [run_cons_of_none hf, ih h]
      simp [Run.andThen, String.append_assoc]

end Vocabulary

end StackLang
