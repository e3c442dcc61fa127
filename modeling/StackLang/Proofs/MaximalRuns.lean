import Mathlib.Data.List.Pairwise
import StackLang.Proofs.Layout

/-!
# The tokens of a line mark its maximal runs of solid characters

`MarksWords line marks` says, by byte offsets into the line only, that a list of columns and tokens
marks the words of the line: the columns lie in the line and in order, with something between two
of them, they hold exactly the characters that are not blank, and each token classifies what its
column holds.  There is exactly one such list, and lexing yields it.
-/

namespace StackLang

open Text

/-! ## Parts of a text by their byte lengths -/

/-- A text with a character in it has a byte. -/
lemma Text.byteLength_pos {cs : List Char} (h : cs ≠ []) : 0 < byteLength cs :=
  Nat.pos_of_ne_zero fun hzero => h (byteLength_eq_zero.1 hzero)

/-- Of two beginnings of a text, the one with fewer bytes begins the other. -/
lemma Text.exists_eq_append_of_byteLength_le {as bs cs ds : List Char} (h : as ++ bs = cs ++ ds)
    (hle : byteLength as ≤ byteLength cs) : ∃ ms, cs = as ++ ms ∧ bs = ms ++ ds := by
  rcases List.append_eq_append_iff.1 h with ⟨ms, rfl, hbs⟩ | ⟨ms, rfl, hds⟩
  · exact ⟨ms, rfl, hbs⟩
  · have hms : ms = [] := by
      rw [byteLength_append] at hle
      exact byteLength_eq_zero.1 (by omega)
    subst hms
    exact ⟨[], by simp, by simpa using hds.symm⟩

/-- A character that stands before the end of a beginning of a text belongs to that beginning. -/
lemma Text.exists_eq_append_cons_of_byteLength_lt {as bs cs ds : List Char} {d : Char}
    (h : as ++ bs = cs ++ d :: ds) (hlt : byteLength cs < byteLength as) :
    ∃ ms, as = cs ++ d :: ms := by
  obtain ⟨ms, rfl, hms⟩ := exists_eq_append_of_byteLength_le h.symm (Nat.le_of_lt hlt)
  cases ms with
  | nil => simp at hlt
  | cons e ms =>
    obtain ⟨rfl, -⟩ := List.cons.inj hms
    exact ⟨ms, rfl⟩

/-! ## Marked words -/

/-- The column holds the character that begins at a byte offset. -/
def Column.Covers (column : Column) (offset : Nat) : Prop :=
  column.start ≤ offset ∧ offset < column.stop

/-- A list of columns and tokens marks the words of a line. -/
structure MarksWords (line : String) (marks : List (Column × Token)) : Prop where
  start_lt_stop : ∀ mark ∈ marks, mark.1.start < mark.1.stop
  stop_le : ∀ mark ∈ marks, mark.1.stop ≤ line.utf8ByteSize
  /-- Both ends of a column fall between characters of the line. -/
  boundaries : ∀ mark ∈ marks, String.Pos.Raw.IsValid line ⟨mark.1.start⟩ ∧
    String.Pos.Raw.IsValid line ⟨mark.1.stop⟩
  ordered : marks.Pairwise fun mark next => mark.1.stop < next.1.start
  solid_inside : ∀ mark ∈ marks, ∀ before c after, line.toList = before ++ c :: after →
    mark.1.Covers (byteLength before) → isBlank c = false
  blank_outside : ∀ before c after, line.toList = before ++ c :: after →
    (∀ mark ∈ marks, ¬ mark.1.Covers (byteLength before)) → isBlank c = true
  /-- A token classifies the part of the line in its column. -/
  classified : ∀ mark ∈ marks, ∃ parts, mark.1.excerpt? line = some parts ∧
    mark.2 = Token.classify parts.marked

/-- The same for a text that begins at a byte offset, with the parts of the text written out. -/
structure MarksFrom (offset : Nat) (cs : List Char) (marks : List (Column × Token)) : Prop where
  fits : ∀ mark ∈ marks, ∃ before word after, cs = before ++ word ++ after ∧ word ≠ [] ∧
    (∀ c ∈ word, isBlank c = false) ∧
    mark = Lexeme.mark ⟨offset + byteLength before, word⟩
  ordered : marks.Pairwise fun mark next => mark.1.stop < next.1.start
  blank_outside : ∀ before c after, cs = before ++ c :: after →
    (∀ mark ∈ marks, ¬ mark.1.Covers (offset + byteLength before)) → isBlank c = true

namespace MarksFrom

/-- A text without words has no marks. -/
lemma of_blank {cs : List Char} (hcs : ∀ c ∈ cs, isBlank c = true) (offset : Nat) :
    MarksFrom offset cs [] where
  fits := by simp
  ordered := List.Pairwise.nil
  blank_outside before c after htext _ := hcs c (by simp [htext])

/-- Without marks there are only blank characters. -/
lemma blank_of_nil {offset : Nat} {cs : List Char} (h : MarksFrom offset cs []) :
    ∀ c ∈ cs, isBlank c = true := by
  intro c hc
  obtain ⟨before, after, htext⟩ := List.append_of_mem hc
  exact h.blank_outside before c after htext (by simp)

/-- Marks lie behind the beginning of a text that starts blank. -/
lemma lt_start {offset : Nat} {cs : List Char} {marks : List (Column × Token)}
    (h : MarksFrom offset cs marks) (hcs : StartsBlank cs) {mark : Column × Token}
    (hmark : mark ∈ marks) : offset < mark.1.start := by
  obtain ⟨before, word, after, htext, hword, hsolid, rfl⟩ := h.fits mark hmark
  have hbefore : before ≠ [] := by
    rintro rfl
    obtain ⟨c, letters, rfl⟩ := List.exists_cons_of_ne_nil hword
    have hblank : isBlank c = true := hcs c (by simp [htext])
    rw [hsolid c List.mem_cons_self] at hblank
    cases hblank
  have hpos := byteLength_pos hbefore
  show offset < offset + byteLength before
  omega

/-- A gap and a word in front of a text add the mark of the word. -/
lemma cons {gap word rest : List Char} (hgap : ∀ c ∈ gap, isBlank c = true) (hword : word ≠ [])
    (hsolid : ∀ c ∈ word, isBlank c = false) (hrest : StartsBlank rest) {offset : Nat}
    {marks : List (Column × Token)}
    (h : MarksFrom (offset + byteLength (gap ++ word)) rest marks) :
    MarksFrom offset (gap ++ word ++ rest)
      (Lexeme.mark ⟨offset + byteLength gap, word⟩ :: marks) where
  fits := by
    intro mark hmark
    rcases List.mem_cons.1 hmark with rfl | hmem
    · exact ⟨gap, word, rest, rfl, hword, hsolid, rfl⟩
    · obtain ⟨before, other, after, rfl, hother, hothersolid, rfl⟩ := h.fits mark hmem
      refine ⟨gap ++ word ++ before, other, after, by simp, hother, hothersolid, ?_⟩
      rw [byteLength_append (gap ++ word), Nat.add_assoc]
  ordered := by
    refine List.pairwise_cons.2 ⟨fun next hnext => ?_, h.ordered⟩
    have hlt := h.lt_start hrest hnext
    rw [byteLength_append, ← Nat.add_assoc] at hlt
    exact hlt
  blank_outside := by
    intro before c after htext houtside
    by_cases hingap : byteLength before < byteLength gap
    · rw [List.append_assoc] at htext
      obtain ⟨others, hsplit⟩ := exists_eq_append_cons_of_byteLength_lt htext hingap
      exact hgap c (by simp [hsplit])
    · have hmark := houtside _ List.mem_cons_self
      have hbehind : byteLength (gap ++ word) ≤ byteLength before := by
        simp only [Column.Covers, Lexeme.mark, Lexeme.column, not_and] at hmark
        rw [byteLength_append]
        omega
      -- neither in the gap nor in the word, so in the rest, where the other marks decide
      obtain ⟨between, rfl, hrest⟩ := exists_eq_append_of_byteLength_le htext hbehind
      refine h.blank_outside between c after hrest fun mark hmem => ?_
      rw [Nat.add_assoc, ← byteLength_append]
      exact houtside mark (List.mem_cons_of_mem _ hmem)

/-- Two different marks stand one behind the other. -/
lemma apart {offset : Nat} {cs : List Char} {marks : List (Column × Token)}
    (h : MarksFrom offset cs marks) {mark other : Column × Token} (hmark : mark ∈ marks)
    (hother : other ∈ marks) (hne : mark ≠ other) :
    mark.1.stop < other.1.start ∨ other.1.stop < mark.1.start := by
  have hboth : marks.Pairwise fun a b => a.1.stop < b.1.start ∨ b.1.stop < a.1.start :=
    h.ordered.imp Or.inl
  have hsymm : Std.Symm fun a b : Column × Token =>
      a.1.stop < b.1.start ∨ b.1.stop < a.1.start := ⟨fun _ _ => Or.symm⟩
  exact hboth.forall hmark hother hne

/-- What stands in front of a word ends with a blank. -/
lemma endsBlank_before {offset : Nat} {marks : List (Column × Token)}
    {before word after : List Char} (h : MarksFrom offset (before ++ word ++ after) marks)
    (hword : word ≠ []) (hmark : Lexeme.mark ⟨offset + byteLength before, word⟩ ∈ marks) :
    EndsBlank before := by
  intro c hc
  obtain ⟨front, rfl⟩ := List.getLast?_eq_some_iff.1 hc
  refine h.blank_outside front c (word ++ after) (by simp) fun other hmem hcovers => ?_
  obtain ⟨front', word', after', htext, -, -, rfl⟩ := h.fits other hmem
  -- the column of the other word holds all of `c`, so it reaches up to this word
  have hreach : byteLength (front ++ [c]) ≤ byteLength (front' ++ word') := by
    have hlt : byteLength front < byteLength (front' ++ word') := by
      have hstop := hcovers.2
      simp only [Lexeme.mark, Lexeme.column] at hstop
      rw [byteLength_append]
      omega
    have hsplit : front' ++ word' ++ after' = front ++ c :: (word ++ after) := by
      simpa using htext.symm
    obtain ⟨letters, hletters⟩ := exists_eq_append_cons_of_byteLength_lt hsplit hlt
    simp [hletters]
  have hpos := byteLength_pos hword
  have hstart := hcovers.1
  by_cases heq : Lexeme.mark ⟨offset + byteLength (front ++ [c]), word⟩ =
      Lexeme.mark ⟨offset + byteLength front', word'⟩
  · have hsize := c.utf8Size_pos
    rw [← heq] at hstart
    simp only [Lexeme.mark, Lexeme.column, byteLength_append, byteLength_cons] at hstart
    omega
  · have hcases := h.apart hmark hmem heq
    simp only [Lexeme.mark, Lexeme.column, byteLength_append, byteLength_cons,
      byteLength_nil] at hcases hstart hreach
    omega

/-- What stands behind a word begins with a blank. -/
lemma startsBlank_after {offset : Nat} {marks : List (Column × Token)}
    {before word after : List Char} (h : MarksFrom offset (before ++ word ++ after) marks)
    (hword : word ≠ []) (hmark : Lexeme.mark ⟨offset + byteLength before, word⟩ ∈ marks) :
    StartsBlank after := by
  intro c hc
  obtain ⟨others, rfl⟩ := List.head?_eq_some_iff.1 hc
  refine h.blank_outside (before ++ word) c others rfl fun other hmem hcovers => ?_
  have hpos := byteLength_pos hword
  by_cases heq : Lexeme.mark ⟨offset + byteLength before, word⟩ = other
  · have hstop := hcovers.2
    rw [← heq] at hstop
    simp only [Lexeme.mark, Lexeme.column, byteLength_append] at hstop
    omega
  · have hcases := h.apart hmark hmem heq
    obtain ⟨hstart, hstop⟩ := hcovers
    rw [byteLength_append] at hstart hstop
    simp only [Lexeme.mark, Lexeme.column] at hcases
    omega

section FirstMark

variable {offset : Nat} {gap word rest : List Char} {marks : List (Column × Token)}

/-- The marks behind the first one begin behind its word. -/
lemma lt_start_of_mem_tail
    (h : MarksFrom offset (gap ++ word ++ rest)
      (Lexeme.mark ⟨offset + byteLength gap, word⟩ :: marks))
    {next : Column × Token} (hnext : next ∈ marks) :
    offset + byteLength (gap ++ word) < next.1.start := by
  obtain ⟨hbehind, -⟩ := List.pairwise_cons.1 h.ordered
  rw [byteLength_append, ← Nat.add_assoc]
  exact hbehind next hnext

/-- A character in front of the first word stands in front of every column, so it is blank. -/
lemma gap_blank
    (h : MarksFrom offset (gap ++ word ++ rest)
      (Lexeme.mark ⟨offset + byteLength gap, word⟩ :: marks)) :
    ∀ c ∈ gap, isBlank c = true := by
  intro c hc
  obtain ⟨before, after, rfl⟩ := List.append_of_mem hc
  refine h.blank_outside before c (after ++ word ++ rest) (by simp) fun next hmem hcovers => ?_
  have hsize := c.utf8Size_pos
  have hstart := hcovers.1
  rcases List.mem_cons.1 hmem with rfl | hmem
  · simp only [Lexeme.mark, Lexeme.column, byteLength_append, byteLength_cons] at hstart
    omega
  · have hlt := h.lt_start_of_mem_tail hmem
    simp only [byteLength_append, byteLength_cons] at hlt
    omega

/-- Behind the first word the other marks mark what is left of the text. -/
lemma of_tail
    (h : MarksFrom offset (gap ++ word ++ rest)
      (Lexeme.mark ⟨offset + byteLength gap, word⟩ :: marks)) :
    MarksFrom (offset + byteLength (gap ++ word)) rest marks where
  fits := by
    intro next hmem
    obtain ⟨before, other, after, htext, hother, hsolid, rfl⟩ :=
      h.fits next (List.mem_cons_of_mem _ hmem)
    have hle : byteLength (gap ++ word) ≤ byteLength before := by
      have hlt := h.lt_start_of_mem_tail hmem
      simp only [Lexeme.mark, Lexeme.column] at hlt
      omega
    rw [List.append_assoc before] at htext
    obtain ⟨between, rfl, hrest⟩ := exists_eq_append_of_byteLength_le htext hle
    refine ⟨between, other, after, by simpa using hrest, hother, hsolid, ?_⟩
    rw [byteLength_append (gap ++ word), Nat.add_assoc]
  ordered := (List.pairwise_cons.1 h.ordered).2
  blank_outside := by
    intro before c after hrest houtside
    refine h.blank_outside (gap ++ word ++ before) c after (by simp [hrest]) ?_
    intro next hmem hcovers
    rw [byteLength_append (gap ++ word), ← Nat.add_assoc] at hcovers
    rcases List.mem_cons.1 hmem with rfl | hmem
    · have hlt := hcovers.2
      simp only [Lexeme.mark, Lexeme.column, byteLength_append] at hlt
      omega
    · exact houtside next hmem hcovers

end FirstMark

/-- The marks of a text are those of its scan. -/
lemma eq_scan {offset : Nat} {cs : List Char} {marks : List (Column × Token)}
    (h : MarksFrom offset cs marks) : marks = (Lexeme.scan offset cs).map Lexeme.mark := by
  induction marks generalizing offset cs with
  | nil =>
    have hscan := Lexeme.scan_gap h.blank_of_nil offset []
    rw [List.append_nil] at hscan
    simp [hscan]
  | cons mark marks ih =>
    -- the first mark takes a gap and a word off the front of the text
    obtain ⟨gap, word, rest, rfl, hword, hsolid, rfl⟩ := h.fits mark List.mem_cons_self
    have hrest : StartsBlank rest := h.startsBlank_after hword List.mem_cons_self
    rw [List.append_assoc, Lexeme.scan_gap h.gap_blank, Lexeme.scan_word hword hsolid hrest,
      ih h.of_tail, byteLength_append, Nat.add_assoc]
    rfl

/-- The words of pieces mark the text of the pieces. -/
lemma of_pieces {pieces : List Piece} (hapart : ∀ piece ∈ pieces.tail, piece.gap ≠ [])
    {trailing : List Char} (htrailing : ∀ c ∈ trailing, isBlank c = true) (offset : Nat) :
    MarksFrom offset (Piece.charactersOf pieces ++ trailing)
      ((Piece.lexemesFrom offset pieces).map Lexeme.mark) := by
  induction pieces generalizing offset with
  | nil => exact of_blank htrailing offset
  | cons piece rest ih =>
    have hgaps : ∀ p ∈ rest, p.gap ≠ [] := hapart
    have htail : ∀ p ∈ rest.tail, p.gap ≠ [] := fun p hp => hgaps p (List.mem_of_mem_tail hp)
    have hbehind : StartsBlank (Piece.charactersOf rest ++ trailing) := by
      refine Piece.startsBlank_charactersOf_append hgaps ?_
      intro c hc
      exact htrailing c (List.mem_of_head? hc)
    have hmarks := cons piece.gap_blank piece.word_ne_nil piece.word_solid hbehind
      (ih htail (offset + byteLength piece.characters))
    simpa [Piece.characters] using hmarks

end MarksFrom

/-- A column that is measured off a line takes the line apart there. -/
lemma Column.excerpt?_mark {line : String} {before word after : List Char}
    (h : line.toList = before ++ word ++ after) :
    (Lexeme.mark ⟨byteLength before, word⟩).1.excerpt? line =
      some ⟨String.ofList before, String.ofList word, String.ofList after⟩ := by
  rw [Column.excerpt?_eq_some_iff]
  refine ⟨?_, by simp [Lexeme.mark, Lexeme.column], by simp [Lexeme.mark, Lexeme.column]⟩
  rw [← String.toList_inj]
  simp [h]

/-- A byte offset that is measured off a line falls between characters of the line. -/
lemma Text.isValid_byteLength {line : String} {before after : List Char}
    (h : line.toList = before ++ after) : String.Pos.Raw.IsValid line ⟨byteLength before⟩ := by
  refine String.Pos.Raw.isValid_iff_exists_append.2
    ⟨String.ofList before, String.ofList after, ?_, ?_⟩
  · rw [← String.toList_inj]
    simp [h]
  · apply String.Pos.Raw.ext
    rw [String.byteIdx_rawEndPos, ← byteLength_toList, String.toList_ofList]

namespace MarksWords

/-- Marks given by byte offsets are marks of the characters of the line. -/
lemma marksFrom {line : String} {marks : List (Column × Token)} (h : MarksWords line marks) :
    MarksFrom 0 line.toList marks where
  fits := by
    rintro ⟨column, token⟩ hmark
    obtain ⟨⟨before, marked, after⟩, hparts, htoken⟩ := h.classified _ hmark
    obtain ⟨hline, hstart, hstop⟩ := Column.excerpt?_eq_some_iff.1 hparts
    have hlt := h.start_lt_stop _ hmark
    simp only [byteLength_append] at hline hstart hstop hlt htoken
    have htext : line.toList = before.toList ++ marked.toList ++ after.toList := by
      simp [hline]
    refine ⟨before.toList, marked.toList, after.toList, htext, ?_, ?_, ?_⟩
    · intro hnil
      rw [hnil, byteLength_nil] at hstop
      omega
    · intro c hc
      obtain ⟨front, back, hsplit⟩ := List.append_of_mem hc
      refine h.solid_inside _ hmark (before.toList ++ front) c (back ++ after.toList)
        (by simp [htext, hsplit]) ⟨?_, ?_⟩
      · simp only [byteLength_append]
        omega
      · have hsize := c.utf8Size_pos
        rw [hsplit, byteLength_append, byteLength_cons] at hstop
        simp only [byteLength_append]
        omega
    · have hcolumn : column = ⟨byteLength before.toList,
          byteLength before.toList + byteLength marked.toList⟩ := by
        rw [hstop, hstart]
      have hsource : (Lexeme.mk (byteLength before.toList) marked.toList).source = marked := by
        simp [Lexeme.source]
      simp [Lexeme.mark, Lexeme.column, Lexeme.token, hsource, hcolumn, htoken]
  ordered := h.ordered
  blank_outside before c after htext houtside :=
    h.blank_outside before c after htext (by simpa using houtside)

end MarksWords

/-- Marks of the characters of a line are marks given by byte offsets. -/
lemma MarksFrom.marksWords {line : String} {marks : List (Column × Token)}
    (h : MarksFrom 0 line.toList marks) : MarksWords line marks where
  start_lt_stop := by
    intro mark hmark
    obtain ⟨before, word, after, -, hword, -, rfl⟩ := h.fits mark hmark
    have hpos := byteLength_pos hword
    simp only [Lexeme.mark, Lexeme.column]
    omega
  stop_le := by
    intro mark hmark
    obtain ⟨before, word, after, htext, -, -, rfl⟩ := h.fits mark hmark
    rw [← byteLength_toList, htext]
    simp [Lexeme.mark, Lexeme.column]
  boundaries := by
    intro mark hmark
    obtain ⟨before, word, after, htext, -, -, rfl⟩ := h.fits mark hmark
    constructor
    · rw [List.append_assoc] at htext
      simpa [Lexeme.mark, Lexeme.column] using isValid_byteLength htext
    · simpa [Lexeme.mark, Lexeme.column] using isValid_byteLength htext
  ordered := h.ordered
  solid_inside := by
    intro mark hmark before c after htext hcovers
    obtain ⟨front, word, back, hsplit, -, hsolid, rfl⟩ := h.fits mark hmark
    obtain ⟨hstart, hstop⟩ := hcovers
    simp only [Lexeme.mark, Lexeme.column, Nat.zero_add] at hstart hstop
    rw [htext, List.append_assoc] at hsplit
    obtain ⟨letters, rfl, hrest⟩ := exists_eq_append_of_byteLength_le hsplit.symm hstart
    have hlt : byteLength letters < byteLength word := by
      rw [byteLength_append] at hstop
      omega
    obtain ⟨others, rfl⟩ := exists_eq_append_cons_of_byteLength_lt hrest hlt
    exact hsolid c (by simp)
  blank_outside before c after htext houtside :=
    h.blank_outside before c after htext (by simpa using houtside)
  classified := by
    intro mark hmark
    obtain ⟨before, word, after, htext, -, -, rfl⟩ := h.fits mark hmark
    refine ⟨⟨String.ofList before, String.ofList word, String.ofList after⟩, ?_, ?_⟩
    · simpa using Column.excerpt?_mark htext
    · simp only [Lexeme.mark, Lexeme.token, Lexeme.source]

/-- Lexing marks the words of a line. -/
lemma Token.marksFrom_ofLineWithColumns (line : String) :
    MarksFrom 0 line.toList (Token.ofLineWithColumns line) := by
  obtain ⟨layout, rfl⟩ := Layout.exists_text_eq line
  rw [Token.ofLineWithColumns, Layout.ofLine_text, Layout.toList_text]
  exact MarksFrom.of_pieces layout.apart layout.trailing_blank 0

/-- Lexing yields the maximal runs of solid characters: its columns and tokens mark the words of
the line, each word is bounded on both sides by a blank or by an end of the line, and no other list
of columns and tokens marks the words of the line. -/
theorem ofLineWithColumns_maximal_runs (line : String) :
    MarksWords line (Token.ofLineWithColumns line) ∧
      (∀ mark ∈ Token.ofLineWithColumns line, ∃ parts, mark.1.excerpt? line = some parts ∧
        EndsBlank parts.before.toList ∧ StartsBlank parts.after.toList) ∧
      ∀ marks, MarksWords line marks → marks = Token.ofLineWithColumns line := by
  have hmarks := Token.marksFrom_ofLineWithColumns line
  refine ⟨hmarks.marksWords, ?_, ?_⟩
  · intro mark hmark
    obtain ⟨before, word, after, htext, hword, -, rfl⟩ := hmarks.fits mark hmark
    rw [htext] at hmarks
    have hbefore := hmarks.endsBlank_before hword hmark
    have hafter := hmarks.startsBlank_after hword hmark
    refine ⟨⟨String.ofList before, String.ofList word, String.ofList after⟩, ?_, ?_, ?_⟩
    · simpa using Column.excerpt?_mark htext
    · simpa using hbefore
    · simpa using hafter
  · intro marks hother
    exact hother.marksFrom.eq_scan

end StackLang
