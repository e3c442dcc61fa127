import StackLang.Routine

/-!
# Stacks

A removal returns the stack that it leaves, also when it fails.  The removals of several items check
the depth before they take anything off, and from this follows that a removal that fails has removed
nothing.  The items are kept topmost first; `Stack.toList` shows them the other way round, bottom
first, which is how a stack is written and printed.
-/

namespace StackLang

universe u v

/-- A stack of items. -/
structure Stack (α : Type u) where
  /-- The items, topmost first. -/
  items : List α
  deriving DecidableEq

namespace Stack

variable {α γ : Type u} {β : Type v}

/-- The stack without items. -/
def empty : Stack α := ⟨[]⟩

instance : Inhabited (Stack α) := ⟨empty⟩

/-- The items of a stack, bottom first. -/
def toList (s : Stack α) : List α := s.items.reverse

/-- The stack with the given items, bottom first. -/
def ofList (items : List α) : Stack α := ⟨items.reverse⟩

/-- The number of items. -/
def size (s : Stack α) : Nat := s.items.length

/-- Whether there are no items. -/
def isEmpty (s : Stack α) : Bool := s.items.isEmpty

/-- The topmost item, if there is one. -/
def top? (s : Stack α) : Option α := s.items.head?

/-- The stack with one more item on top. -/
def push (s : Stack α) (item : α) : Stack α := ⟨item :: s.items⟩

/-- The stack with several more items, the last of which comes to lie on top. -/
def pushAll (s : Stack α) (items : List α) : Stack α := items.foldl push s

/-- An error when there are fewer than `count` items. -/
def requireDepth (s : Stack α) (count : Nat) : Except Diagnostic PUnit.{u + 1} :=
  if s.size < count then .error (.raise .stackUnderflow) else .ok ⟨⟩

/-- A removal that is not started when there are fewer than `count` items. -/
def checked (count : Nat) (removal : Routine (Stack α) γ) : Routine (Stack α) γ := do
  Routine.reading fun s => s.requireDepth count
  removal

/-- Takes the topmost item off. -/
def pop : Routine (Stack α) α
  | ⟨top :: rest⟩ => (.ok top, ⟨rest⟩)
  | ⟨[]⟩ => (.error (.raise .stackUnderflow), ⟨[]⟩)

/-- Takes the two topmost items off and returns them, the deeper one first. -/
def popTwo : Routine (Stack α) (α × α) :=
  checked 2 do
    let top ← pop
    let deeper ← pop
    return (deeper, top)

/-- Takes up to `count` items off and returns them, the topmost one last. -/
def drain (count : Nat) : Routine (Stack α) (List α) := fun s =>
  (.ok (s.items.take count).reverse, ⟨s.items.drop count⟩)

/-- Takes the `count` topmost items off and returns them, the topmost one last. -/
def popMany (count : Nat) : Routine (Stack α) (List α) := checked count (drain count)

/-- The item that lies `depth` places below the topmost one. -/
def peek (s : Stack α) (depth : Nat) : Except Diagnostic α :=
  if h : depth < s.size then .ok (s.items.get ⟨depth, h⟩) else .error (.raise .stackUnderflow)

/-- The stack with every item replaced by its image. -/
def map (f : α → β) (s : Stack α) : Stack β := ⟨s.items.map f⟩

/-- The depth between angle brackets and then the items, bottom first, with a space after each
part. -/
def render (textOf : α → String) (s : Stack α) : String :=
  "<" ++ s.size.repr ++ "> " ++ String.join (s.toList.map fun item => textOf item ++ " ")

/-- The items, bottom first, as a list between square brackets. -/
def description (textOf : α → String) (s : Stack α) : String :=
  "[" ++ String.intercalate ", " (s.toList.map textOf) ++ "]"

/-! ### What each operation does to the list of items -/

/-- Stacks with the same items are the same. -/
@[ext] theorem ext {s t : Stack α} (h : s.items = t.items) : s = t := by
  cases s
  cases t
  exact congrArg mk h

/-- A stack is determined by its list. -/
theorem toList_inj {s t : Stack α} : s.toList = t.toList ↔ s = t := by
  simp [toList, Stack.ext_iff]

/-- A stack made from a list has that list. -/
@[simp] theorem toList_ofList (items : List α) : (ofList items).toList = items := by
  simp [toList, ofList]

/-- A stack is made from its list. -/
@[simp] theorem ofList_toList (s : Stack α) : ofList s.toList = s := by
  simp [toList, ofList]

/-- The list of the empty stack is empty. -/
@[simp] theorem toList_empty : (empty : Stack α).toList = [] := rfl

/-- The list is as long as the stack is deep. -/
@[simp] theorem length_toList (s : Stack α) : s.toList.length = s.size := by
  simp [toList, size]

/-- The empty stack has no items. -/
@[simp] theorem size_empty : (empty : Stack α).size = 0 := rfl

/-- A push adds one item. -/
@[simp] theorem size_push (s : Stack α) (item : α) : (s.push item).size = s.size + 1 := rfl

/-- A push adds to the end of the list. -/
@[simp] theorem toList_push (s : Stack α) (item : α) :
    (s.push item).toList = s.toList ++ [item] := by
  simp [toList, push]

/-- Several pushes add to the end of the list in their order. -/
@[simp] theorem toList_pushAll (s : Stack α) (items : List α) :
    (s.pushAll items).toList = s.toList ++ items := by
  induction items generalizing s with
  | nil => simp [pushAll]
  | cons item items ih =>
    show ((s.push item).pushAll items).toList = _
    simp [ih]

/-- The items pushed last come first among the items. -/
theorem items_pushAll (s : Stack α) (items : List α) :
    (s.pushAll items).items = items.reverse ++ s.items := by
  simpa [toList] using congrArg List.reverse (toList_pushAll s items)

/-- The list of the images is the list of images. -/
@[simp] theorem toList_map (f : α → β) (s : Stack α) : (s.map f).toList = s.toList.map f := by
  simp [toList, map]

/-! ### Removals

A removal on a stack that is deep enough returns what was pushed last.  On any other stack it fails
and leaves the stack as it was.  For the removals that check the depth first this is one fact,
`checked_of_size_lt`. -/

/-- A removal that asks for more items than there are fails and has removed nothing. -/
theorem checked_of_size_lt {s : Stack α} {count : Nat} (h : s.size < count)
    (removal : Routine (Stack α) γ) :
    checked count removal s = (.error (.raise .stackUnderflow), s) := by
  have hdepth : s.requireDepth count = .error (.raise .stackUnderflow) := if_pos h
  exact Routine.bind_of_error (by rw [Routine.reading, hdepth]) _

/-- A removal that asks for no more items than there are is started. -/
theorem checked_of_le {s : Stack α} {count : Nat} (h : count ≤ s.size)
    (removal : Routine (Stack α) γ) : checked count removal s = removal s := by
  have hdepth : s.requireDepth count = .ok ⟨⟩ := if_neg (Nat.not_lt.2 h)
  exact Routine.bind_of_ok (by rw [Routine.reading, hdepth]) _

/-- A pop returns the item pushed last. -/
theorem pop_push (s : Stack α) (item : α) : pop (s.push item) = (.ok item, s) := rfl

/-- A pop of the empty stack leaves it empty. -/
theorem pop_of_size_lt {s : Stack α} (h : s.size < 1) :
    pop s = (.error (.raise .stackUnderflow), s) := by
  obtain ⟨_ | ⟨top, rest⟩⟩ := s
  · rfl
  · simp [size] at h

/-- A double pop returns the two items pushed last, in the order in which they were pushed. -/
theorem popTwo_push_push (s : Stack α) (deeper top : α) :
    popTwo ((s.push deeper).push top) = (.ok (deeper, top), s) := by
  rw [popTwo, checked_of_le (by simp), Routine.bind_of_ok (pop_push _ top),
    Routine.bind_of_ok (pop_push s deeper)]
  rfl

/-- A double pop of a stack with fewer than two items leaves it as it was. -/
theorem popTwo_of_size_lt {s : Stack α} (h : s.size < 2) :
    popTwo s = (.error (.raise .stackUnderflow), s) :=
  checked_of_size_lt h _

/-- Popping many returns the items pushed last, in the order in which they were pushed. -/
theorem popMany_pushAll (s : Stack α) (items : List α) :
    popMany items.length (s.pushAll items) = (.ok items, s) := by
  rw [popMany, checked_of_le (by simp [size, items_pushAll])]
  simp [drain, items_pushAll]

/-- Popping more items than there are leaves the stack as it was. -/
theorem popMany_of_size_lt {s : Stack α} {count : Nat} (h : s.size < count) :
    popMany count s = (.error (.raise .stackUnderflow), s) :=
  checked_of_size_lt h _

/-- The item found at a depth is the one below that many others. -/
theorem peek_pushAll (s : Stack α) (item : α) (items : List α) :
    ((s.push item).pushAll items).peek items.length = .ok item := by
  have hitems : ((s.push item).pushAll items).items = items.reverse ++ item :: s.items :=
    items_pushAll (s.push item) items
  have hlt : items.length < ((s.push item).pushAll items).size := by simp [size, hitems]
  simp [peek, hlt, hitems]

/-- Nothing is found below the bottom. -/
theorem peek_of_size_le {s : Stack α} {depth : Nat} (h : s.size ≤ depth) :
    s.peek depth = .error (.raise .stackUnderflow) :=
  dif_neg (Nat.not_lt.2 h)

end Stack

end StackLang
