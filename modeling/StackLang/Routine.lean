import StackLang.Diagnostic

/-!
# Routines

A routine works on a state.  It returns something or fails, and it leaves a state in both cases: a
failure undoes nothing by itself, so what a failed routine has changed can be asked.  Routines are
put one after the other, and a failure keeps the later ones from being started.
-/

namespace StackLang

universe u v w

/-- What is done to a state: something is returned or an error is raised, and a state is left. -/
def Routine (σ : Type u) (α : Type v) : Type (max u v) := σ → Except Diagnostic α × σ

namespace Routine

variable {σ : Type u} {τ : Type w} {α β : Type v}

instance : Monad (Routine.{u, v} σ) where
  pure result := fun s => (.ok result, s)
  bind first next := fun s =>
    match first s with
    | (.ok result, after) => next result after
    | (.error d, after) => (.error d, after)

/-- Looks at the state, which may fail, and leaves it as it is. -/
def reading (look : σ → Except Diagnostic α) : Routine σ α := fun s => (look s, s)

/-- Changes the state. -/
def changing (change : σ → σ) : Routine σ PUnit.{v + 1} := fun s => (.ok ⟨⟩, change s)

/-- Works on a part of the state and puts what is left of the part back. -/
def onPart (part : σ → τ) (put : σ → τ → σ) (routine : Routine τ α) : Routine σ α :=
  fun s => ((routine (part s)).1, put s (routine (part s)).2)

/-- Runs a routine that returns nothing of interest: the error, if it failed, and the state. -/
def perform (routine : Routine σ PUnit.{v + 1}) (s : σ) : Option Diagnostic × σ :=
  match routine s with
  | (.ok _, after) => (none, after)
  | (.error d, after) => (some d, after)

/-! ### One routine after another -/

/-- The second routine goes on with what the first one returns and leaves. -/
theorem bind_of_ok {first : Routine σ α} {s after : σ} {result : α}
    (h : first s = (.ok result, after)) (next : α → Routine σ β) :
    (first >>= next) s = next result after := by
  simp [bind, h]

/-- A failure is the end of both routines. -/
theorem bind_of_error {first : Routine σ α} {s after : σ} {d : Diagnostic}
    (h : first s = (.error d, after)) (next : α → Routine σ β) :
    (first >>= next) s = (.error d, after) := by
  simp [bind, h]

/-- A routine that returns is performed without an error. -/
theorem perform_of_ok {routine : Routine σ PUnit.{v + 1}} {s after : σ}
    (h : routine s = (.ok ⟨⟩, after)) : routine.perform s = (none, after) := by
  simp [perform, h]

/-- A routine that fails is performed with its error. -/
theorem perform_of_error {routine : Routine σ PUnit.{v + 1}} {s after : σ} {d : Diagnostic}
    (h : routine s = (.error d, after)) : routine.perform s = (some d, after) := by
  simp [perform, h]

end Routine

end StackLang
