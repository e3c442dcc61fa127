import StackLang.Stack.Basic

/-!
# Requests to a stack

The operations of a stack as data, so that whole histories of a stack can be run and spoken of.
-/

namespace StackLang.Stack

universe u

/-- One operation on a stack. -/
inductive Request (α : Type u) where
  | push (item : α)
  | pop
  | popTwo
  | popMany (count : Nat)
  | peek (depth : Nat)
  | top
  | clear

/-- What a stack answers to a request. -/
inductive Reply (α : Type u) where
  /-- The request has no answer but its effect. -/
  | done
  | item (value : α)
  | pair (deeper top : α)
  /-- The items taken off, the topmost one last. -/
  | items (values : List α)
  /-- The topmost item, if the stack has one. -/
  | top (value? : Option α)
  | failed (d : Diagnostic)
  deriving DecidableEq

variable {α : Type u}

/-- The answer to an operation, and the stack that the operation leaves. -/
def Reply.ofResult {β : Type u} (replyOf : β → Reply α) :
    Except Diagnostic β × Stack α → Reply α × Stack α
  | (.ok result, rest) => (replyOf result, rest)
  | (.error d, rest) => (.failed d, rest)

/-- The answer to a request and the stack after it. -/
def answer (s : Stack α) : Request α → Reply α × Stack α
  | .push item => (.done, s.push item)
  | .pop => Reply.ofResult .item (pop s)
  | .popTwo => Reply.ofResult (fun pair => .pair pair.1 pair.2) (popTwo s)
  | .popMany count => Reply.ofResult .items (popMany count s)
  | .peek depth => Reply.ofResult .item (s.peek depth, s)
  | .top => (.top s.top?, s)
  | .clear => (.done, empty)

/-- The answers to a list of requests made one after the other, each with the stack after it. -/
def answers (s : Stack α) : List (Request α) → List (Reply α × Stack α)
  | [] => []
  | request :: rest => s.answer request :: answers (s.answer request).2 rest

/-- The number of items that a request asks for. -/
def Request.demand : Request α → Nat
  | .push _ => 0
  | .pop => 1
  | .popTwo => 2
  | .popMany count => count
  | .peek depth => depth + 1
  | .top => 0
  | .clear => 0

/-- A request that asks for more items than there are fails and leaves the stack as it was. -/
theorem answer_of_size_lt {s : Stack α} {request : Request α} (h : s.size < request.demand) :
    s.answer request = (.failed (.raise .stackUnderflow), s) := by
  cases request with
  | push item => exact absurd h (Nat.not_lt_zero _)
  | pop => rw [answer, pop_of_size_lt h, Reply.ofResult]
  | popTwo => rw [answer, popTwo_of_size_lt h, Reply.ofResult]
  | popMany count =>
    have hdepth : s.size < count := h
    rw [answer, popMany_of_size_lt hdepth, Reply.ofResult]
  | peek depth => rw [answer, peek_of_size_le (Nat.le_of_lt_succ h), Reply.ofResult]
  | top => exact absurd h (Nat.not_lt_zero _)
  | clear => exact absurd h (Nat.not_lt_zero _)

end StackLang.Stack
