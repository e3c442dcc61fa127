import Mathlib
import StackLang.Stack.Request

/-!
# Bulk operations and single pops

A stack can take several items off at once, and it can look below its topmost item.  Each of these
operations is what successive pops would do: the items taken off at once are those that the pops
return, in reverse order, and an item below the topmost one is the deepest of those that are taken
off together with it.

`Stack.Lifo.answer` describes a stack without any of these shortcuts.  It keeps a plain list to
which items are added in front, and takes items off it one by one.  Whatever is asked of a stack,
and however often it fails, its answers are those of such a list (`Stack.answers_eq_lifo`).
-/

namespace StackLang

universe u

variable {α : Type u}

namespace Stack

/-! ## A plain list, last in and first out -/

namespace Lifo

/-- Takes items off a list one by one.  The answer has them in the order in which they were taken,
and the list without them; there is none when the list has too few of them. -/
def takeOff : Nat → List α → Option (List α × List α)
  | 0, all => some ([], all)
  | _ + 1, [] => none
  | count + 1, top :: rest => (takeOff count rest).map fun parts => (top :: parts.1, parts.2)

/-- The answer to a request for which there are too few items. -/
def tooFew : Reply α := .failed (.raise .stackUnderflow)

/-- The answer of a plain list to a request and the list after it. -/
def answer (all : List α) : Request α → Reply α × List α
  | .push item => (.done, item :: all)
  | .pop =>
    match takeOff 1 all with
    | some ([top], rest) => (.item top, rest)
    | _ => (tooFew, all)
  | .popTwo =>
    match takeOff 2 all with
    | some ([top, deeper], rest) => (.pair deeper top, rest)
    | _ => (tooFew, all)
  | .popMany count =>
    match takeOff count all with
    | some (taken, rest) => (.items taken.reverse, rest)
    | none => (tooFew, all)
  | .peek depth =>
    -- the item is the last one that is taken off, and all of them are put back
    match (takeOff (depth + 1) all).bind fun parts => parts.1.getLast? with
    | some item => (.item item, all)
    | none => (tooFew, all)
  | .top => (.top ((takeOff 1 all).bind fun parts => parts.1.head?), all)
  | .clear => (.done, [])

/-- The answers of a plain list to a list of requests made one after the other, each with the list
after it. -/
def answers (all : List α) : List (Request α) → List (Reply α × List α)
  | [] => []
  | request :: rest => answer all request :: answers (answer all request).2 rest

/-- As many items as lie in front are taken off and returned. -/
lemma takeOff_append (taken rest : List α) :
    takeOff taken.length (taken ++ rest) = some (taken, rest) := by
  induction taken with
  | nil => rfl
  | cons top taken ih => simp [takeOff, ih]

/-- A list has no more items to take off than its length. -/
lemma takeOff_of_length_lt {count : Nat} {all : List α} (h : all.length < count) :
    takeOff count all = none := by
  induction count generalizing all with
  | zero => cases h
  | succ count ih =>
    cases all with
    | nil => rfl
    | cons top rest => simp [takeOff, ih (Nat.lt_of_succ_lt_succ h)]

end Lifo

/-! ## One request

A stack that is deep enough for a request is written as the items that the request is about, topmost
first, and the items below them. -/

section Request

variable {s : Stack α} {count : Nat}

/-- A stack has the asked number of items on top, or it has too few. -/
lemma exists_items_or_size_lt (s : Stack α) (count : Nat) :
    (∃ taken below, s = ⟨taken ++ below⟩ ∧ taken.length = count) ∨ s.size < count := by
  rcases Nat.lt_or_ge s.size count with hlt | hle
  · exact Or.inr hlt
  · refine Or.inl ⟨s.items.take count, s.items.drop count, ?_, List.length_take_of_le hle⟩
    rw [List.take_append_drop]

/-- A stack has an item at the asked depth, or it is not that deep. -/
lemma exists_item_or_size_le (s : Stack α) (depth : Nat) :
    (∃ upper item below, s = ⟨upper ++ item :: below⟩ ∧ upper.length = depth) ∨ s.size ≤ depth := by
  rcases Nat.lt_or_ge depth s.size with hlt | hle
  · refine Or.inl ⟨s.items.take depth, s.items[depth], s.items.drop (depth + 1), ?_,
      List.length_take_of_le (Nat.le_of_lt hlt)⟩
    rw [← List.drop_eq_getElem_cons hlt, List.take_append_drop]
  · exact Or.inr hle

/-- Taking many items off returns them with the topmost one last. -/
lemma answer_popMany_append (taken below : List α) :
    (Stack.mk (taken ++ below)).answer (.popMany taken.length) =
      (.items taken.reverse, ⟨below⟩) := by
  have hpushed : Stack.mk (taken ++ below) = (Stack.mk below).pushAll taken.reverse := by
    simp [Stack.ext_iff, items_pushAll]
  have hpop := popMany_pushAll ⟨below⟩ taken.reverse
  rw [← hpushed, List.length_reverse] at hpop
  rw [answer, hpop, Reply.ofResult]

/-- Looking at a depth returns the item that lies below that many others. -/
lemma answer_peek_append (upper : List α) (item : α) (below : List α) :
    (Stack.mk (upper ++ item :: below)).answer (.peek upper.length) =
      (.item item, ⟨upper ++ item :: below⟩) := by
  have hpushed : Stack.mk (upper ++ item :: below) =
      ((Stack.mk below).push item).pushAll upper.reverse := by
    simp [Stack.ext_iff, items_pushAll, push]
  have hpeek := peek_pushAll ⟨below⟩ item upper.reverse
  rw [← hpushed, List.length_reverse] at hpeek
  rw [answer, hpeek, Reply.ofResult]

/-- An answer with a pair as an answer with the two items in a list. -/
def Reply.asItems : Reply α → Reply α
  | .pair first second => .items [first, second]
  | reply => reply

/-- Two items are taken off as any other number of them. -/
lemma answer_popTwo (s : Stack α) :
    ((s.answer .popTwo).1.asItems, (s.answer .popTwo).2) = s.answer (.popMany 2) := by
  obtain ⟨_ | ⟨top, _ | ⟨deeper, rest⟩⟩⟩ := s
  · rfl
  · rfl
  · exact (answer_popMany_append [top, deeper] rest).symm

/-- A stack answers each request as the plain list of its items does. -/
lemma answer_eq_lifo (s : Stack α) (request : Request α) :
    ((s.answer request).1, (s.answer request).2.items) = Lifo.answer s.items request := by
  cases request with
  | push item => rfl
  | pop =>
    obtain ⟨_ | ⟨top, rest⟩⟩ := s <;> rfl
  | popTwo =>
    obtain ⟨_ | ⟨top, _ | ⟨deeper, rest⟩⟩⟩ := s <;> rfl
  | popMany count =>
    rcases s.exists_items_or_size_lt count with ⟨taken, below, rfl, rfl⟩ | hlt
    · simp only [answer_popMany_append, Lifo.answer, Lifo.takeOff_append]
    · have hnone : Lifo.takeOff count s.items = none := Lifo.takeOff_of_length_lt hlt
      have hfails : s.answer (.popMany count) = (.failed (.raise .stackUnderflow), s) :=
        answer_of_size_lt hlt
      simp only [hfails, Lifo.answer, hnone, Lifo.tooFew]
  | peek depth =>
    rcases s.exists_item_or_size_le depth with ⟨upper, item, below, rfl, rfl⟩ | hle
    · have htaken := Lifo.takeOff_append (upper ++ [item]) below
      rw [List.append_assoc, List.singleton_append, List.length_append, List.length_singleton]
        at htaken
      simp only [answer_peek_append, Lifo.answer, htaken, Option.bind_some, List.getLast?_concat]
    · have hnone : Lifo.takeOff (depth + 1) s.items = none :=
        Lifo.takeOff_of_length_lt (Nat.lt_succ_of_le hle)
      have hfails : s.answer (.peek depth) = (.failed (.raise .stackUnderflow), s) :=
        answer_of_size_lt (Nat.lt_succ_of_le hle)
      simp only [hfails, Lifo.answer, hnone, Lifo.tooFew, Option.bind_none]
  | top =>
    obtain ⟨_ | ⟨top, rest⟩⟩ := s <;> rfl
  | clear => rfl

end Request

/-! ## Many requests -/

/-- The stack after a list of requests made one after the other. -/
def after (s : Stack α) : List (Request α) → Stack α
  | [] => s
  | request :: rest => (s.answer request).2.after rest

/-- The answers to a list of requests made one after the other, without the stacks. -/
def replies (s : Stack α) (requests : List (Request α)) : List (Reply α) :=
  (s.answers requests).map Prod.fst

/-- Successive pops return the items of a stack from the top on. -/
lemma replies_pops (taken below : List α) :
    (Stack.mk (taken ++ below)).replies (.replicate taken.length .pop) = taken.map .item := by
  induction taken with
  | nil => rfl
  | cons top taken ih => exact congrArg (.item top :: ·) ih

/-- Successive pops leave the items that lie below. -/
lemma after_pops (taken below : List α) :
    (Stack.mk (taken ++ below)).after (.replicate taken.length .pop) = ⟨below⟩ := by
  induction taken with
  | nil => rfl
  | cons top taken ih => exact ih

/-- Items that are pushed one after the other lie in reverse order on top. -/
lemma after_pushes (s : Stack α) (items : List α) :
    s.after (items.map .push) = ⟨items.reverse ++ s.items⟩ := by
  induction items generalizing s with
  | nil => rfl
  | cons item items ih =>
    rw [List.map_cons, after, ih]
    simp [answer, push]

/-- Through any list of requests a stack answers as the plain list of its items does. -/
lemma answers_eq_lifo (s : Stack α) (requests : List (Request α)) :
    (s.answers requests).map (fun step => (step.1, step.2.items)) =
      Lifo.answers s.items requests := by
  induction requests generalizing s with
  | nil => rfl
  | cons request rest ih =>
    rw [answers, List.map_cons, ih, Lifo.answers, ← answer_eq_lifo]

/-- Taking many items off fails, with an error that has no place, exactly when there are too few. -/
lemma answer_popMany_fails_iff (s : Stack α) (count : Nat) :
    (∃ d, s.answer (.popMany count) = (.failed d, s) ∧ d.fault = .stackUnderflow ∧
      d.isLocated = false) ↔ s.size < count := by
  constructor
  · rintro ⟨d, hanswer, -, -⟩
    rcases s.exists_items_or_size_lt count with ⟨taken, below, rfl, rfl⟩ | hlt
    · rw [answer_popMany_append] at hanswer
      cases hanswer
    · exact hlt
  · intro hlt
    exact ⟨_, answer_of_size_lt hlt, rfl, rfl⟩

/-- Taking many items off returns what single pops return, in reverse order, and leaves what they
leave; pushing the items again undoes it. -/
lemma exists_answer_popMany {s : Stack α} {count : Nat} (h : count ≤ s.size) :
    ∃ items rest, s.answer (.popMany count) = (.items items, rest) ∧
      s.replies (.replicate count .pop) = items.reverse.map .item ∧
      s.after (.replicate count .pop) = rest ∧ rest.after (items.map .push) = s := by
  rcases s.exists_items_or_size_lt count with ⟨taken, below, rfl, rfl⟩ | hlt
  · refine ⟨taken.reverse, ⟨below⟩, answer_popMany_append taken below, ?_,
      after_pops taken below, ?_⟩
    · rw [List.reverse_reverse, replies_pops]
    · rw [after_pushes, List.reverse_reverse]
  · exact absurd h (Nat.not_le.2 hlt)

/-- Looking at a depth changes nothing.  It succeeds exactly when the stack is deeper, with the
first of the items that would be taken off down to that depth. -/
lemma answer_peek_spec (s : Stack α) (depth : Nat) :
    (s.answer (.peek depth)).2 = s ∧
      ((∃ item, (s.answer (.peek depth)).1 = .item item) ↔ depth < s.size) ∧
      ∀ item, (s.answer (.peek depth)).1 = .item item →
        ∃ items rest, s.answer (.popMany (depth + 1)) = (.items (item :: items), rest) := by
  rcases s.exists_item_or_size_le depth with ⟨upper, item, below, rfl, rfl⟩ | hle
  · have htaken := answer_popMany_append (upper ++ [item]) below
    rw [List.append_assoc, List.singleton_append, List.length_append, List.length_singleton,
      List.reverse_concat] at htaken
    rw [answer_peek_append]
    refine ⟨rfl, iff_of_true ⟨item, rfl⟩ (by simp [size]), ?_⟩
    rintro _ ⟨⟩
    exact ⟨upper.reverse, ⟨below⟩, htaken⟩
  · have hfails : s.answer (.peek depth) = (.failed (.raise .stackUnderflow), s) :=
      answer_of_size_lt (Nat.lt_succ_of_le hle)
    rw [hfails]
    refine ⟨rfl, iff_of_false ?_ (Nat.not_lt.2 hle), ?_⟩
    · rintro ⟨item, ⟨⟩⟩
    · rintro item ⟨⟩

/-- The bulk operations agree with single pops.  Taking `n` items off fails exactly when there are
fewer, with an underflow that has no place, and then the stack stays; otherwise the items are those
that `n` pops return, in reverse order, the stack is the one that the pops leave, and pushing the
items in order restores the stack.  Taking two items off is the case of `n = 2`.  Looking `n` items
below the topmost one never changes the stack, succeeds exactly when there are more than `n`, and
then returns the first of the items that taking `n + 1` off would return.  So the answers to
whatever is asked of a stack that was empty at first are those of a plain list, last in and first
out. -/
theorem bulk_operations_agree_with_pops (s : Stack α) (n : Nat) :
    ((∃ d, s.answer (.popMany n) = (.failed d, s) ∧ d.fault = .stackUnderflow ∧
        d.isLocated = false) ↔ s.size < n) ∧
      (n ≤ s.size → ∃ items rest, s.answer (.popMany n) = (.items items, rest) ∧
        s.replies (.replicate n .pop) = items.reverse.map .item ∧
        s.after (.replicate n .pop) = rest ∧ rest.after (items.map .push) = s) ∧
      ((s.answer .popTwo).1.asItems, (s.answer .popTwo).2) = s.answer (.popMany 2) ∧
      ((s.answer (.peek n)).2 = s ∧
        ((∃ item, (s.answer (.peek n)).1 = .item item) ↔ n < s.size) ∧
        ∀ item, (s.answer (.peek n)).1 = .item item →
          ∃ items rest, s.answer (.popMany (n + 1)) = (.items (item :: items), rest)) ∧
      ∀ requests, ((empty : Stack α).answers requests).map (fun step => (step.1, step.2.items)) =
        Lifo.answers [] requests :=
  ⟨s.answer_popMany_fails_iff n, exists_answer_popMany, s.answer_popTwo, s.answer_peek_spec n,
    answers_eq_lifo empty⟩

/-- Of three items two can be taken off, as two pops do; four cannot, and the third one below the
top is the bottom. -/
theorem bulk_operations_agree_with_pops_three_items :
    (∃ items rest, (ofList [1, 2, 3]).answer (.popMany 2) = (.items items, rest) ∧
      (ofList [1, 2, 3]).replies [.pop, .pop] = items.reverse.map .item ∧
      (ofList [1, 2, 3]).after [.pop, .pop] = rest ∧
      rest.after (items.map .push) = ofList [1, 2, 3]) ∧
    (ofList [1, 2, 3]).replies [.pop, .pop] = [.item 3, .item 2] ∧
    (∃ items rest, (ofList [1, 2, 3]).answer (.popMany 3) = (.items (1 :: items), rest)) ∧
    ∃ d, (ofList [1, 2, 3]).answer (.popMany 4) = (.failed d, ofList [1, 2, 3]) ∧
      d.fault = .stackUnderflow ∧ d.isLocated = false := by
  refine ⟨?_, by decide, ?_, ?_⟩
  · exact (bulk_operations_agree_with_pops (ofList [1, 2, 3]) 2).2.1 (by decide)
  · exact (bulk_operations_agree_with_pops (ofList [1, 2, 3]) 2).2.2.2.1.2.2 1 (by decide)
  · exact (bulk_operations_agree_with_pops (ofList [1, 2, 3]) 4).1.2 (by decide)

end Stack

end StackLang
