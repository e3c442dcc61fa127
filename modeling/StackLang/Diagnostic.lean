import StackLang.Column
import StackLang.Fault

/-!
# Diagnostics

A diagnostic says which fault occurred and, where that is known, at which column of the line and
at which word.  Its full description names all three, and leaves out what is not known.
-/

namespace StackLang

/-- A fault with the place and the text of the word that caused it. -/
structure Diagnostic where
  fault : Fault
  /-- The place of the word, `Column.nowhere` when it is not known. -/
  column : Column := .nowhere
  /-- The text of the word, empty when it is not known. -/
  word : String := ""
  deriving DecidableEq

namespace Diagnostic

/-- A fault as it is raised where a word fails, with neither place nor word. -/
def raise (fault : Fault) : Diagnostic := { fault }

/-- The diagnostic with a place.  It is meant for one that has no place yet. -/
def inColumn (d : Diagnostic) (column : Column) : Diagnostic := { d with column }

/-- The diagnostic with the text of the word.  It is meant for one that has no word yet. -/
def withWord (d : Diagnostic) (word : String) : Diagnostic := { d with word }

/-- Whether the place of the failing word is known. -/
def isLocated (d : Diagnostic) : Bool := d.column ≠ .nowhere

/-- The text of the failing word, when it is known. -/
def word? (d : Diagnostic) : Option String := if d.word = "" then none else some d.word

/-- The text shown to the user, which leaves out place and word. -/
def message (d : Diagnostic) : String := d.fault.message

/-- The part of a description that gives the place. -/
def placeText (d : Diagnostic) : String :=
  if d.isLocated then " (" ++ d.column.start.repr ++ ".." ++ d.column.stop.repr ++ ")" else ""

/-- The part of a description that gives the word. -/
def wordText (d : Diagnostic) : String :=
  if d.word = "" then "" else "; " ++ d.word

/-- The full description: the message, then place and word as far as they are known. -/
def description (d : Diagnostic) : String :=
  "Error \x7b " ++ d.message ++ d.placeText ++ d.wordText ++ " \x7d"

/-- An error is raised with its fault. -/
@[simp] theorem fault_raise (fault : Fault) : (raise fault).fault = fault := rfl

/-- The message of an error is that of its fault. -/
@[simp] theorem message_raise (fault : Fault) : (raise fault).message = fault.message := rfl

/-- Errors with different faults are different. -/
@[simp] theorem raise_inj {f g : Fault} : raise f = raise g ↔ f = g := by
  simp [raise]

/-- An error is located when its place is not the one that stands for none. -/
theorem isLocated_iff {d : Diagnostic} : d.isLocated = true ↔ d.column ≠ .nowhere := by
  simp [isLocated]

/-- An error has no word exactly when its word is empty. -/
theorem word?_eq_none_iff {d : Diagnostic} : d.word? = none ↔ d.word = "" := by
  simp [word?]

end Diagnostic

end StackLang
