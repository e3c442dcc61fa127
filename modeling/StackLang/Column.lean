import StackLang.Text.Offset

/-!
# Columns

A column names a part of a line by the byte offsets of its two ends.  `Column.excerpt?` takes a
line apart at a column; it refuses a column that is reversed, reaches beyond the line, or has an
end inside a character.
-/

namespace StackLang

/-- The part of a line from the byte offset `start` up to, and without, the byte offset `stop`. -/
structure Column where
  start : Nat
  stop : Nat
  deriving DecidableEq

/-- A line taken apart into the text before a column, the text in it and the text after it. -/
structure Excerpt where
  before : String
  marked : String
  after : String
  deriving DecidableEq

namespace Column

/-- The column that stands for no place in particular. -/
def nowhere : Column := ⟨0, 0⟩

/-- The column moved to the right. -/
def shift (column : Column) (bytes : Nat) : Column :=
  ⟨column.start + bytes, column.stop + bytes⟩

/-- The line taken apart at the column, if both ends of the column fall between characters of the
line and are in order. -/
def excerpt? (column : Column) (line : String) : Option Excerpt :=
  match Text.cutAt? column.stop line.toList with
  | none => none
  | some (front, after) =>
    match Text.cutAt? column.start front with
    | none => none
    | some (before, marked) =>
      some ⟨String.ofList before, String.ofList marked, String.ofList after⟩

/-- A column is taken out of a line exactly when its ends are the byte lengths of the text before
it and of the text up to its end. -/
theorem excerpt?_eq_some_iff {column : Column} {line : String} {parts : Excerpt} :
    column.excerpt? line = some parts ↔
      line = parts.before ++ parts.marked ++ parts.after ∧
        Text.byteLength parts.before.toList = column.start ∧
          Text.byteLength (parts.before.toList ++ parts.marked.toList) = column.stop := by
  obtain ⟨before, marked, after⟩ := parts
  have hline : line = before ++ marked ++ after ↔
      line.toList = (before.toList ++ marked.toList) ++ after.toList := by
    rw [← String.toList_inj]
    simp
  constructor
  · intro h
    unfold excerpt? at h
    split at h
    · simp at h
    · next front rest hstop =>
      split at h
      · simp at h
      · next left middle hstart =>
        obtain ⟨hcut, hlen⟩ := Text.cutAt?_eq_some_iff.1 hstop
        obtain ⟨rfl, hlen'⟩ := Text.cutAt?_eq_some_iff.1 hstart
        simp only [Option.some.injEq, Excerpt.mk.injEq] at h
        obtain ⟨rfl, rfl, rfl⟩ := h
        exact ⟨hline.2 (by simpa using hcut), by simpa using hlen', by simpa using hlen⟩
  · rintro ⟨hcut, hstart, hstop⟩
    have houter : Text.cutAt? column.stop line.toList =
        some (before.toList ++ marked.toList, after.toList) :=
      Text.cutAt?_eq_some_iff.2 ⟨hline.1 hcut, hstop⟩
    have hinner : Text.cutAt? column.start (before.toList ++ marked.toList) =
        some (before.toList, marked.toList) :=
      Text.cutAt?_eq_some_iff.2 ⟨rfl, hstart⟩
    simp [excerpt?, houter, hinner]

end Column

end StackLang
