import Mathlib
import StackLang.Proofs.StyledDisplay

/-!
# Underlining a part of a line

A column can be any pair of numbers.  It fits a line (`Column.Fits`) when its ends are in order, lie
in the line and fall between characters; then the line is the text in front of the column, the text
in it and the text behind it, each of which may be empty.  Exactly then is something underlined, and
since each of the two marks has four bytes, the line is found again by taking these out at the
places where the column says they are.
-/

namespace StackLang

open Text

/-! ## Parts of a text between two places -/

namespace Text

variable {text : String}

/-- Two parts of a text that meet are one part. -/
lemma extract_append_extract {p q r : text.Pos} (hpq : p ≤ q) (hqr : q ≤ r) :
    text.extract p q ++ text.extract q r = text.extract p r := by
  rw [← String.toByteArray_inj]
  simp only [String.toByteArray_append, String.toByteArray_extract]
  exact (ByteArray.extract_eq_extract_append_extract _ hpq hqr).symm

/-- From its beginning to its end a text is itself. -/
lemma extract_startPos_endPos (text : String) : text.extract text.startPos text.endPos = text := by
  rw [← String.toByteArray_inj, String.toByteArray_extract]
  exact ByteArray.extract_zero_size

/-- A part has as many bytes as there are between its two places. -/
lemma utf8ByteSize_extract (p q : text.Pos) :
    (text.extract p q).utf8ByteSize = q.offset.byteIdx - p.offset.byteIdx := by
  rw [← String.size_toByteArray, String.toByteArray_extract, ByteArray.size_extract,
    String.size_toByteArray, Nat.min_eq_left q.isValid.le_utf8ByteSize]

/-- The bytes without `count` of them from an offset on. -/
def withoutBytes (bytes : ByteArray) (offset count : Nat) : ByteArray :=
  bytes.extract 0 offset ++ bytes.extract (offset + count) bytes.size

/-- What stands between two texts is taken out by counting the bytes in front of it and in it. -/
lemma withoutBytes_append (before taken after : String) :
    withoutBytes (before ++ taken ++ after).toByteArray before.utf8ByteSize taken.utf8ByteSize =
      (before ++ after).toByteArray := by
  simp only [String.toByteArray_append, ← String.size_toByteArray]
  generalize before.toByteArray = front, taken.toByteArray = middle, after.toByteArray = back
  have hfront : (front ++ middle ++ back).extract 0 front.size = front := by
    rw [ByteArray.append_assoc, ByteArray.extract_append_eq_left rfl]
  have hback : (front ++ middle ++ back).extract (front.size + middle.size)
      (front ++ middle ++ back).size = back :=
    ByteArray.extract_append_eq_right ByteArray.size_append.symm ByteArray.size_append
  rw [withoutBytes, hfront, hback]

end Text

/-! ## Columns that fit -/

namespace Column

/-- A column fits a line when its ends are in order, lie in the line and fall between characters of
the line. -/
structure Fits (column : Column) (line : String) : Prop where
  start_le_stop : column.start ≤ column.stop
  stop_le : column.stop ≤ line.utf8ByteSize
  isValid_start : String.Pos.Raw.IsValid line ⟨column.start⟩
  isValid_stop : String.Pos.Raw.IsValid line ⟨column.stop⟩

variable {column : Column} {line : String}

namespace Fits

/-- The place in the line at which the column begins. -/
def startPos (h : column.Fits line) : line.Pos := ⟨⟨column.start⟩, h.isValid_start⟩

/-- The place in the line at which the column ends. -/
def stopPos (h : column.Fits line) : line.Pos := ⟨⟨column.stop⟩, h.isValid_stop⟩

/-- A column that fits takes the line apart at its two places. -/
lemma excerpt?_eq (h : column.Fits line) :
    column.excerpt? line =
      some ⟨line.extract line.startPos h.startPos, line.extract h.startPos h.stopPos,
        line.extract h.stopPos line.endPos⟩ := by
  have hfront : line.extract line.startPos h.startPos ++ line.extract h.startPos h.stopPos =
      line.extract line.startPos h.stopPos :=
    extract_append_extract (Nat.zero_le _) h.start_le_stop
  refine excerpt?_eq_some_iff.2 ⟨?_, ?_, ?_⟩
  · rw [hfront, extract_append_extract (Nat.zero_le _) h.stop_le, extract_startPos_endPos]
  · rw [byteLength_toList, utf8ByteSize_extract]
    rfl
  · rw [← String.toList_append, hfront, byteLength_toList, utf8ByteSize_extract]
    rfl

end Fits

/-- A column takes a line apart only where it fits. -/
lemma fits_of_excerpt? {parts : Excerpt} (h : column.excerpt? line = some parts) :
    column.Fits line := by
  obtain ⟨rfl, hstart, hstop⟩ := utf8ByteSize_of_excerpt? h
  have hvalid_start : String.Pos.Raw.IsValid (parts.before ++ parts.marked ++ parts.after)
      parts.before.rawEndPos :=
    String.Pos.Raw.isValid_iff_exists_append.2 ⟨_, _, String.append_assoc, rfl⟩
  have hvalid_stop : String.Pos.Raw.IsValid (parts.before ++ parts.marked ++ parts.after)
      (parts.before ++ parts.marked).rawEndPos :=
    String.Pos.Raw.isValid_iff_exists_append.2 ⟨_, _, rfl, rfl⟩
  refine ⟨?_, ?_, ?_, ?_⟩
  · rw [← hstart, ← hstop, String.utf8ByteSize_append]
    exact Nat.le_add_right _ _
  · rw [← hstop]
    exact hvalid_stop.le_utf8ByteSize
  · rwa [← hstart]
  · rwa [← hstop]

/-- There is no excerpt exactly where the column does not fit the line. -/
lemma excerpt?_eq_none_iff : column.excerpt? line = none ↔ ¬ column.Fits line := by
  constructor
  · intro hnone hfits
    rw [hfits.excerpt?_eq] at hnone
    cases hnone
  · intro hnot
    by_contra hsome
    obtain ⟨parts, hparts⟩ := Option.ne_none_iff_exists'.1 hsome
    exact hnot (fits_of_excerpt? hparts)

instance (column : Column) (line : String) : Decidable (column.Fits line) :=
  decidable_of_iff (¬ column.excerpt? line = none) (by rw [excerpt?_eq_none_iff, not_not])

/-! ## The underlined line -/

/-- Where a column does not fit nothing is underlined. -/
lemma underline_of_not_fits (h : ¬ column.Fits line) : column.underline line = line := by
  simp only [underline, excerpt?_eq_none_iff.2 h]

/-- In a line that it fits, a column underlines the part between its ends and keeps the rest. -/
lemma Fits.underline_eq (h : column.Fits line) :
    column.underline line =
      line.extract line.startPos h.startPos ++ "\x1b[4m" ++ line.extract h.startPos h.stopPos ++
        "\x1b[0m" ++ line.extract h.stopPos line.endPos := by
  rw [underline_of_excerpt? h.excerpt?_eq]
  simp only [Style.underlined, Style.startUnderline, Style.reset, String.append_assoc]

/-- Without the two marks, which have four bytes each, the underlined line is the line. -/
lemma withoutBytes_underline {parts : Excerpt} (h : column.excerpt? line = some parts) :
    withoutBytes (withoutBytes (column.underline line).toByteArray (column.stop + 4) 4)
      column.start 4 = line.toByteArray := by
  obtain ⟨before, marked, after⟩ := parts
  obtain ⟨rfl, hstart, hstop⟩ := utf8ByteSize_of_excerpt? h
  have hmark : Style.startUnderline.utf8ByteSize = 4 := rfl
  have hreset : Style.reset.utf8ByteSize = 4 := rfl
  have hplace : column.stop + 4 = (before ++ Style.startUnderline ++ marked).utf8ByteSize := by
    simp only [String.utf8ByteSize_append] at hstop ⊢
    omega
  -- the second mark is taken out first, while its place is still the one in the whole text
  have hfirst := withoutBytes_append (before ++ Style.startUnderline ++ marked) Style.reset after
  have hsecond := withoutBytes_append before Style.startUnderline (marked ++ after)
  rw [underline_of_excerpt? h, Style.underlined]
  rw [← hplace, hreset] at hfirst
  rw [hmark] at hsecond
  simp only [String.append_assoc, hstart] at hfirst hsecond ⊢
  rw [hfirst, hsecond]

/-- What is underlined is longer than the line. -/
lemma underline_ne_of_excerpt? {parts : Excerpt} (h : column.excerpt? line = some parts) :
    column.underline line ≠ line := by
  obtain ⟨before, marked, after⟩ := parts
  obtain ⟨rfl, -, -⟩ := utf8ByteSize_of_excerpt? h
  intro heq
  have hsize := congrArg String.utf8ByteSize heq
  have hmark : Style.startUnderline.utf8ByteSize = 4 := rfl
  rw [underline_of_excerpt? h, Style.underlined] at hsize
  simp only [String.utf8ByteSize_append] at hsize
  omega

/-- Underlining marks exactly the part that is asked for, whatever the column.  Where the column
fits the line, the result is the text in front of the column, the text in it between the two marks
and the text behind it; taking four bytes out behind the end of the column and four at its beginning
gives the line back.  Where it does not fit, because it is reversed, reaches beyond the line or has
an end inside a character, the line stays as it is.  So the line is changed exactly where the column
fits. -/
theorem underline_marks_exactly (column : Column) (line : String) :
    (∀ h : column.Fits line,
      column.underline line =
          line.extract line.startPos h.startPos ++ "\x1b[4m" ++
            line.extract h.startPos h.stopPos ++ "\x1b[0m" ++
              line.extract h.stopPos line.endPos ∧
        withoutBytes (withoutBytes (column.underline line).toByteArray (column.stop + 4) 4)
          column.start 4 = line.toByteArray) ∧
      (¬ column.Fits line → column.underline line = line) ∧
      (column.underline line ≠ line ↔ column.Fits line) := by
  refine ⟨?_, underline_of_not_fits, ?_, ?_⟩
  · intro h
    exact ⟨h.underline_eq, withoutBytes_underline h.excerpt?_eq⟩
  · intro hne
    by_contra hnot
    exact hne (underline_of_not_fits hnot)
  · intro h
    exact underline_ne_of_excerpt? h.excerpt?_eq

/-- In a line with letters of one, two and four bytes, the letter of two bytes can be marked, and
nothing at the end of the line can; an end inside a letter, an order that is reversed and a place
beyond the line are left alone. -/
theorem underline_marks_exactly_umlaut :
    Fits ⟨1, 3⟩ "aü😀" ∧ Fits ⟨7, 7⟩ "aü😀" ∧
      underline ⟨1, 3⟩ "aü😀" = "a\x1b[4mü\x1b[0m😀" ∧
      underline ⟨7, 7⟩ "aü😀" = "aü😀\x1b[4m\x1b[0m" ∧
      underline ⟨1, 2⟩ "aü😀" = "aü😀" ∧ underline ⟨3, 1⟩ "aü😀" = "aü😀" ∧
      underline ⟨3, 8⟩ "aü😀" = "aü😀" := by
  have hletter : Fits ⟨1, 3⟩ "aü😀" := by decide
  have hend : Fits ⟨7, 7⟩ "aü😀" := by decide
  refine ⟨hletter, hend, ?_, ?_, ?_, ?_, ?_⟩
  · exact ((underline_marks_exactly ⟨1, 3⟩ "aü😀").1 hletter).1.trans (by cbv)
  · exact ((underline_marks_exactly ⟨7, 7⟩ "aü😀").1 hend).1.trans (by cbv)
  · exact (underline_marks_exactly ⟨1, 2⟩ "aü😀").2.1 (by decide)
  · exact (underline_marks_exactly ⟨3, 1⟩ "aü😀").2.1 (by decide)
  · exact (underline_marks_exactly ⟨3, 8⟩ "aü😀").2.1 (by decide)

end Column

end StackLang
