import StackLang.Spelling

/-!
# Vocabularies

A vocabulary says which opcodes can be executed and what each of them means.  A meaning is one of
the sixteen built-in ones and is named by the opcode that has it in the standard vocabulary, so
binding `dup` to the meaning of `drop` makes `dup` discard the topmost value.  Later bindings of an
opcode replace earlier ones, and everything that a vocabulary shows is decided by `meaning?`.
-/

namespace StackLang

/-- The executable opcodes and their meanings. -/
structure Vocabulary where
  /-- Opcodes with the built-in opcodes that they behave as, the latest binding first. -/
  bindings : List (Opcode × Opcode)
  deriving DecidableEq

namespace Vocabulary

/-- The vocabulary in which nothing can be executed. -/
def empty : Vocabulary := ⟨[]⟩

/-- The vocabulary in which every opcode has its own meaning. -/
def standard : Vocabulary := ⟨Opcode.all.map fun op => (op, op)⟩

/-- The vocabulary in which `op` behaves as the built-in `meaning`, whatever it did before. -/
def insert (v : Vocabulary) (op meaning : Opcode) : Vocabulary := ⟨(op, meaning) :: v.bindings⟩

/-- The vocabulary after several insertions, made from left to right. -/
def insertAll (v : Vocabulary) (bindings : List (Opcode × Opcode)) : Vocabulary :=
  bindings.foldl (fun v binding => v.insert binding.1 binding.2) v

/-- The built-in opcode that `op` behaves as. -/
def meaning? (v : Vocabulary) (op : Opcode) : Option Opcode := v.bindings.lookup op

/-- Whether `op` can be executed. -/
def contains (v : Vocabulary) (op : Opcode) : Bool := (v.meaning? op).isSome

/-- The opcodes that can be executed, in the order of `Opcode.all`. -/
def opcodes (v : Vocabulary) : List Opcode := Opcode.all.filter v.contains

/-- The opcodes that cannot be executed, in the order of `Opcode.all`. -/
def missing (v : Vocabulary) : List Opcode := Opcode.all.filter fun op => !v.contains op

/-- The spellings of the opcodes that can be executed, symbols first. -/
def spellings (v : Vocabulary) : List String :=
  (Spelling.all.filter fun spelling => v.contains spelling.opcode).map Spelling.text

/-- The executable opcodes by their titles. -/
def description (v : Vocabulary) : String :=
  "WordTable [" ++ String.intercalate ", " (v.opcodes.map Opcode.title) ++ "]"

/-- In the empty vocabulary nothing has a meaning. -/
@[simp] theorem meaning?_empty (op : Opcode) : empty.meaning? op = none := rfl

/-- In the standard vocabulary every opcode means itself. -/
@[simp] theorem meaning?_standard (op : Opcode) : standard.meaning? op = some op := by
  cases op <;> rfl

/-- An insertion decides the meaning of its own opcode and keeps those of all others. -/
theorem meaning?_insert (v : Vocabulary) (key meaning op : Opcode) :
    (v.insert key meaning).meaning? op = if op = key then some meaning else v.meaning? op := by
  simp only [meaning?, insert, List.lookup_cons]
  by_cases h : op = key
  · simp [h]
  · simp [h, beq_eq_false_iff_ne.2 h]

/-- An inserted opcode has the inserted meaning. -/
@[simp] theorem meaning?_insert_self (v : Vocabulary) (op meaning : Opcode) :
    (v.insert op meaning).meaning? op = some meaning := by
  simp [meaning?_insert]

/-- The opcodes listed are those that can be executed. -/
@[simp] theorem mem_opcodes {v : Vocabulary} {op : Opcode} :
    op ∈ v.opcodes ↔ v.contains op = true := by
  simp [opcodes]

/-- The opcodes missing are those that cannot be executed. -/
@[simp] theorem mem_missing {v : Vocabulary} {op : Opcode} :
    op ∈ v.missing ↔ v.contains op = false := by
  simp [missing]

/-- A text is listed when it spells an opcode that can be executed. -/
theorem mem_spellings {v : Vocabulary} {text : String} :
    text ∈ v.spellings ↔
      ∃ spelling ∈ Spelling.all, v.contains spelling.opcode = true ∧ spelling.text = text := by
  simp [spellings, and_assoc]

end Vocabulary

end StackLang
