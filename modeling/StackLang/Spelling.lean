import StackLang.Opcode

/-!
# Spellings

How opcodes are written in a line.  Five are written as symbols and must match exactly; the other
eleven are written as names and match in either letter case.  The order of the two tables is the
order in which `words` lists them.
-/

namespace StackLang

/-- The way an opcode is written. -/
structure Spelling where
  text : String
  opcode : Opcode
  deriving DecidableEq

namespace Spelling

/-- The opcodes that are written as symbols. -/
def symbols : List Spelling :=
  [⟨"+", .plus⟩, ⟨"-", .minus⟩, ⟨"*", .star⟩, ⟨"/", .slash⟩, ⟨".", .dot⟩]

/-- The opcodes that are written as names, in lower case. -/
def names : List Spelling :=
  [⟨".s", .dotS⟩, ⟨"dup", .dup⟩, ⟨"drop", .drop⟩, ⟨"swap", .swap⟩, ⟨"over", .over⟩,
    ⟨"rot", .rot⟩, ⟨"negate", .negate⟩, ⟨"abs", .abs⟩, ⟨"depth", .depth⟩, ⟨"clear", .clear⟩,
    ⟨"words", .words⟩]

/-- All spellings, symbols first. -/
def all : List Spelling := symbols ++ names

/-- The opcode that a table spells with the given text. -/
def opcode? (table : List Spelling) (text : String) : Option Opcode :=
  (table.find? fun spelling => spelling.text == text).map opcode

/-- The text with which a table spells an opcode. -/
def text? (table : List Spelling) (op : Opcode) : Option String :=
  (table.find? fun spelling => spelling.opcode == op).map text

/-- Every opcode has a spelling. -/
theorem exists_mem_all (op : Opcode) : ∃ spelling ∈ all, spelling.opcode = op := by
  cases op <;> decide

/-- No text and no opcode is spelled twice. -/
theorem nodup_all : (all.map text).Nodup ∧ (all.map opcode).Nodup := by decide

end Spelling

end StackLang
