import Mathlib.Tactic.Lemma
import StackLang.Lexeme

/-!
# Lines laid out as words and gaps

A line can be written down piece by piece: a gap of blank characters, a word, the next gap, the
next word, and blank characters behind the last word.  A `Layout` is such a division of a line.
Every line has one (`Layout.exists_text_eq`), and the lexemes of a line are the words of any of its
layouts at the places where the layout puts them (`Layout.ofLine_text`).  Facts about lexing are
read off layouts, so the scanner itself is opened in this file only.
-/

namespace StackLang

open Text

/-! ## Texts that begin with a blank -/

/-- A text that is empty or begins with a blank character, so that it cannot prolong a word in
front of it. -/
def Text.StartsBlank (cs : List Char) : Prop :=
  ∀ c, cs.head? = some c → isBlank c = true

/-- The end of a line counts as a blank. -/
@[simp] lemma Text.startsBlank_nil : StartsBlank [] := by
  intro c hc
  cases hc

/-- Characters start with a blank when the first one is a blank. -/
@[simp] lemma Text.startsBlank_cons {c : Char} {cs : List Char} :
    StartsBlank (c :: cs) ↔ isBlank c = true := by
  simp [StartsBlank]

/-- A text that is empty or ends with a blank character. -/
def Text.EndsBlank (cs : List Char) : Prop :=
  ∀ c, cs.getLast? = some c → isBlank c = true

/-- Two texts between which no word can run across: one of them is empty, the first ends with a
blank character, or the second begins with one. -/
def Text.Apart (as bs : List Char) : Prop :=
  as = [] ∨ bs = [] ∨ as.getLast?.any isBlank = true ∨ bs.head?.any isBlank = true

instance (as bs : List Char) : Decidable (Apart as bs) :=
  inferInstanceAs (Decidable (_ ∨ _ ∨ _ ∨ _))

/-- Behind a word only a text that starts blank is apart. -/
lemma Text.Apart.startsBlank {as bs : List Char} (h : Apart as bs) {c : Char}
    (hlast : as.getLast? = some c) (hc : isBlank c = false) : StartsBlank bs := by
  rcases h with rfl | rfl | hend | hbegin
  · simp at hlast
  · exact startsBlank_nil
  · rw [hlast, Option.any_some, hc] at hend
    cases hend
  · intro d hd
    rwa [hd, Option.any_some] at hbegin

namespace Lexeme

/-! ## Scanning gaps and words -/

/-- Blank characters are passed over. -/
lemma scan_gap {gap : List Char} (hgap : ∀ c ∈ gap, isBlank c = true) (offset : Nat)
    (rest : List Char) : scan offset (gap ++ rest) = scan (offset + byteLength gap) rest := by
  induction gap generalizing offset with
  | nil => simp
  | cons c gap ih =>
    have hc : isBlank c = true := hgap c List.mem_cons_self
    have htail : ∀ d ∈ gap, isBlank d = true := fun d hd => hgap d (List.mem_cons_of_mem c hd)
    rw [List.cons_append, scan_cons_of_isBlank hc, ih htail, byteLength_cons, Nat.add_assoc]

/-- The lexemes of a text do not begin in front of the text. -/
lemma le_start_of_mem_scan {offset : Nat} {cs : List Char} {lexeme : Lexeme}
    (h : lexeme ∈ scan offset cs) : offset ≤ lexeme.start := by
  induction cs generalizing offset lexeme with
  | nil => simp at h
  | cons c cs ih =>
    cases hc : isBlank c with
    | true =>
      rw [scan_cons_of_isBlank hc] at h
      exact Nat.le_trans (Nat.le_add_right _ _) (ih h)
    | false =>
      rw [scan_cons_of_not_isBlank hc] at h
      -- `attach` changes the first lexeme only, and lets that one begin at `offset`
      cases hscan : scan (offset + c.utf8Size) cs with
      | nil =>
        rw [hscan] at h
        simp only [attach, List.mem_singleton] at h
        simp [h]
      | cons next rest =>
        have hbound : ∀ l ∈ next :: rest, offset ≤ l.start := fun l hl =>
          Nat.le_trans (Nat.le_add_right _ _) (ih (hscan ▸ hl))
        rw [hscan, attach] at h
        split at h
        · rcases List.mem_cons.1 h with rfl | hmem
          · exact Nat.le_refl _
          · exact hbound lexeme (List.mem_cons_of_mem next hmem)
        · rcases List.mem_cons.1 h with rfl | hmem
          · exact Nat.le_refl _
          · exact hbound lexeme hmem

/-- A text that starts blank has no lexeme at its very beginning. -/
lemma lt_start_of_mem_scan {offset : Nat} {cs : List Char} (hcs : StartsBlank cs)
    {lexeme : Lexeme} (h : lexeme ∈ scan offset cs) : offset < lexeme.start := by
  cases cs with
  | nil => simp at h
  | cons c cs =>
    rw [scan_cons_of_isBlank (startsBlank_cons.1 hcs)] at h
    have hle := le_start_of_mem_scan h
    have hsize := c.utf8Size_pos
    omega

/-- A word is one lexeme when nothing behind it prolongs it. -/
lemma scan_word {word rest : List Char} (hword : word ≠ [])
    (hsolid : ∀ c ∈ word, isBlank c = false) (hrest : StartsBlank rest) (offset : Nat) :
    scan offset (word ++ rest) =
      ⟨offset, word⟩ :: scan (offset + byteLength word) rest := by
  induction word generalizing offset with
  | nil => exact absurd rfl hword
  | cons c word ih =>
    have hc : isBlank c = false := hsolid c List.mem_cons_self
    rw [List.cons_append, scan_cons_of_not_isBlank hc]
    cases word with
    | nil =>
      -- the next lexeme, if there is one, begins behind a blank and is not joined
      simp only [List.nil_append, byteLength_cons, byteLength_nil, Nat.add_zero]
      cases hscan : scan (offset + c.utf8Size) rest with
      | nil => rfl
      | cons next others =>
        have hlt : offset + c.utf8Size < next.start :=
          lt_start_of_mem_scan hrest (hscan ▸ List.mem_cons_self)
        rw [attach, if_neg (Nat.ne_of_gt hlt)]
    | cons d word =>
      rw [ih (List.cons_ne_nil d word) fun e he => hsolid e (List.mem_cons_of_mem c he)]
      simp [attach, Nat.add_assoc]

/-! ## Replacing characters -/

/-- The lexeme with every character replaced by its image. -/
def map (f : Char → Char) (lexeme : Lexeme) : Lexeme :=
  ⟨lexeme.start, lexeme.characters.map f⟩

/-- Replacing the characters of a lexeme does not move it. -/
@[simp] lemma start_map (f : Char → Char) (lexeme : Lexeme) :
    (lexeme.map f).start = lexeme.start := rfl

section Map

variable {f : Char → Char} (hblank : ∀ c, isBlank (f c) = isBlank c)
  (hsize : ∀ c, (f c).utf8Size = c.utf8Size)

include hsize in
/-- A replaced character is attached to replaced lexemes as it was before. -/
lemma attach_map (offset : Nat) (c : Char) (next : List Lexeme) :
    attach offset (f c) (next.map (map f)) = (attach offset c next).map (map f) := by
  cases next with
  | nil => rfl
  | cons first rest =>
    simp only [List.map_cons, attach, start_map, hsize]
    split <;> rfl

include hblank hsize in
/-- Replacing characters by others that are blank where these are and have as many bytes moves no
lexeme. -/
lemma scan_map (offset : Nat) (cs : List Char) :
    scan offset (cs.map f) = (scan offset cs).map (map f) := by
  induction cs generalizing offset with
  | nil => rfl
  | cons c cs ih =>
    rw [List.map_cons]
    cases hc : isBlank c with
    | true =>
      rw [scan_cons_of_isBlank ((hblank c).trans hc), scan_cons_of_isBlank hc, hsize, ih]
    | false =>
      rw [scan_cons_of_not_isBlank ((hblank c).trans hc), scan_cons_of_not_isBlank hc, hsize, ih,
        attach_map hsize]

include hblank hsize in
/-- The lexemes of a line whose characters are replaced are the replaced lexemes. -/
lemma ofLine_map (line : String) : ofLine (line.map f) = (ofLine line).map (map f) := by
  rw [ofLine, String.toList_map, scan_map hblank hsize, ofLine]

end Map

end Lexeme

/-! ## Layouts -/

/-- A word of a line and the gap in front of it. -/
structure Piece where
  gap : List Char
  word : List Char
  gap_blank : ∀ c ∈ gap, isBlank c = true
  word_ne_nil : word ≠ []
  word_solid : ∀ c ∈ word, isBlank c = false

namespace Piece

/-- The characters of a piece. -/
def characters (piece : Piece) : List Char := piece.gap ++ piece.word

/-- The characters of several pieces, one behind the other. -/
def charactersOf (pieces : List Piece) : List Char := pieces.flatMap characters

/-- The words of pieces that begin at `offset`, each with its place. -/
def lexemesFrom (offset : Nat) : List Piece → List Lexeme
  | [] => []
  | piece :: rest =>
    ⟨offset + byteLength piece.gap, piece.word⟩ ::
      lexemesFrom (offset + byteLength piece.characters) rest

/-- No pieces have no characters. -/
@[simp] lemma charactersOf_nil : charactersOf [] = [] := rfl

/-- The characters of the first piece come first. -/
@[simp] lemma charactersOf_cons (piece : Piece) (rest : List Piece) :
    charactersOf (piece :: rest) = piece.characters ++ charactersOf rest := rfl

/-- No pieces have no lexemes. -/
@[simp] lemma lexemesFrom_nil (offset : Nat) : lexemesFrom offset [] = [] := rfl

/-- The word of the first piece begins behind its gap, and the others follow behind the piece. -/
@[simp] lemma lexemesFrom_cons (offset : Nat) (piece : Piece) (rest : List Piece) :
    lexemesFrom offset (piece :: rest) =
      ⟨offset + byteLength piece.gap, piece.word⟩ ::
        lexemesFrom (offset + byteLength piece.characters) rest := rfl

/-- Pieces that follow a gap, and a text that starts blank behind them, start blank. -/
lemma startsBlank_charactersOf_append {pieces : List Piece}
    (hgaps : ∀ piece ∈ pieces, piece.gap ≠ []) {rest : List Char} (hrest : StartsBlank rest) :
    StartsBlank (charactersOf pieces ++ rest) := by
  cases pieces with
  | nil => exact hrest
  | cons piece others =>
    obtain ⟨c, gap, hgap⟩ := List.exists_cons_of_ne_nil (hgaps piece List.mem_cons_self)
    have hblank : isBlank c = true := piece.gap_blank c (by simp [hgap])
    simpa [characters, hgap] using hblank

/-- Pieces with gaps between them are scanned to their words, and then the text behind them is
scanned.  The text behind them must not prolong the last word. -/
lemma scan_charactersOf_append {pieces : List Piece}
    (hapart : ∀ piece ∈ pieces.tail, piece.gap ≠ []) {rest : List Char}
    (hrest : pieces ≠ [] → StartsBlank rest) (offset : Nat) :
    Lexeme.scan offset (charactersOf pieces ++ rest) =
      lexemesFrom offset pieces ++
        Lexeme.scan (offset + byteLength (charactersOf pieces)) rest := by
  induction pieces generalizing offset with
  | nil => simp
  | cons piece others ih =>
    have hblank : StartsBlank rest := hrest (List.cons_ne_nil piece others)
    have hothers : ∀ p ∈ others, p.gap ≠ [] := hapart
    have hbehind : StartsBlank (charactersOf others ++ rest) :=
      startsBlank_charactersOf_append hothers hblank
    have htail : ∀ p ∈ others.tail, p.gap ≠ [] := fun p hp =>
      hothers p (List.mem_of_mem_tail hp)
    calc Lexeme.scan offset (charactersOf (piece :: others) ++ rest)
        = Lexeme.scan offset (piece.gap ++ (piece.word ++ (charactersOf others ++ rest))) := by
          simp [characters]
      _ = ⟨offset + byteLength piece.gap, piece.word⟩ ::
            Lexeme.scan (offset + byteLength piece.gap + byteLength piece.word)
              (charactersOf others ++ rest) := by
          rw [Lexeme.scan_gap piece.gap_blank,
            Lexeme.scan_word piece.word_ne_nil piece.word_solid hbehind]
      _ = lexemesFrom offset (piece :: others) ++
            Lexeme.scan (offset + byteLength (charactersOf (piece :: others))) rest := by
          rw [ih htail fun _ => hblank]
          simp [characters, Nat.add_assoc]

/-- The lexemes of pieces are words of their text, at the places where they stand in it. -/
lemma exists_split_of_mem_lexemesFrom {offset : Nat} {pieces : List Piece} {lexeme : Lexeme}
    (h : lexeme ∈ lexemesFrom offset pieces) :
    lexeme.characters ≠ [] ∧ ∃ before after,
      charactersOf pieces = before ++ lexeme.characters ++ after ∧
        lexeme.start = offset + byteLength before := by
  induction pieces generalizing offset with
  | nil => simp at h
  | cons piece rest ih =>
    rw [lexemesFrom_cons] at h
    rcases List.mem_cons.1 h with rfl | hmem
    · exact ⟨piece.word_ne_nil, piece.gap, charactersOf rest, rfl, rfl⟩
    · obtain ⟨hne, before, after, htext, hstart⟩ := ih hmem
      refine ⟨hne, piece.characters ++ before, after, by simp [htext], ?_⟩
      rw [hstart, byteLength_append, Nat.add_assoc]

end Piece

/-- A division of a line into pieces and blank characters behind the last word.  Only the first
word can stand without a gap in front of it. -/
structure Layout where
  pieces : List Piece
  trailing : List Char
  apart : ∀ piece ∈ pieces.tail, piece.gap ≠ []
  trailing_blank : ∀ c ∈ trailing, isBlank c = true

namespace Layout

/-- The characters of the line. -/
def characters (layout : Layout) : List Char :=
  Piece.charactersOf layout.pieces ++ layout.trailing

/-- The line. -/
def text (layout : Layout) : String := String.ofList layout.characters

/-- The words of the line. -/
def words (layout : Layout) : List String :=
  layout.pieces.map fun piece => String.ofList piece.word

/-- The words of the line with the places at which the layout puts them. -/
def lexemes (layout : Layout) : List Lexeme := Piece.lexemesFrom 0 layout.pieces

/-- The text of a layout has the characters of the layout. -/
@[simp] lemma toList_text (layout : Layout) : layout.text.toList = layout.characters := by
  simp [text]

/-- A text behind a layout is scanned on its own, when it is apart from the line. -/
lemma scan_characters_append (layout : Layout) {rest : List Char}
    (hrest : Apart layout.characters rest) (offset : Nat) :
    Lexeme.scan offset (layout.characters ++ rest) =
      Piece.lexemesFrom offset layout.pieces ++
        Lexeme.scan (offset + byteLength layout.characters) rest := by
  have hblank : layout.pieces ≠ [] → StartsBlank (layout.trailing ++ rest) := by
    intro hpieces
    by_cases htrailing : layout.trailing = []
    · -- the line ends with the last letter of its last word
      obtain ⟨front, last, hlast⟩ := List.eq_nil_or_concat layout.pieces |>.resolve_left hpieces
      obtain ⟨letters, c, hword⟩ := List.eq_nil_or_concat last.word |>.resolve_left last.word_ne_nil
      have hend : layout.characters.getLast? = some c := by
        simp [characters, htrailing, hlast, Piece.charactersOf, Piece.characters, hword]
      have hsolid : isBlank c = false := last.word_solid c (by simp [hword])
      simpa [htrailing] using hrest.startsBlank hend hsolid
    · obtain ⟨c, cs, htext⟩ := List.exists_cons_of_ne_nil htrailing
      have hc : isBlank c = true := layout.trailing_blank c (by simp [htext])
      simpa [htext] using hc
  rw [characters, List.append_assoc, Piece.scan_charactersOf_append layout.apart hblank,
    Lexeme.scan_gap layout.trailing_blank, byteLength_append, Nat.add_assoc]

/-- The lexemes of a laid-out line are its words at their places. -/
theorem ofLine_text (layout : Layout) : Lexeme.ofLine layout.text = layout.lexemes := by
  have hend : Apart layout.characters [] := Or.inr (Or.inl rfl)
  have hscan := layout.scan_characters_append hend 0
  simpa [Lexeme.ofLine, lexemes] using hscan

/-- The sources of the lexemes of a layout are its words. -/
lemma map_source_lexemes (layout : Layout) : layout.lexemes.map Lexeme.source = layout.words := by
  have hfrom : ∀ (offset : Nat) (pieces : List Piece),
      (Piece.lexemesFrom offset pieces).map Lexeme.source =
        pieces.map fun piece => String.ofList piece.word := by
    intro offset pieces
    induction pieces generalizing offset with
    | nil => rfl
    | cons piece rest ih => simp [ih, Lexeme.source]
  exact hfrom 0 layout.pieces

/-- The words of a layout are the words of its line. -/
lemma words_eq (layout : Layout) :
    layout.words = (Lexeme.ofLine layout.text).map Lexeme.source := by
  rw [ofLine_text, map_source_lexemes]

/-! ## Every line has a layout -/

/-- Every text is laid out in some way. -/
lemma exists_characters_eq (cs : List Char) : ∃ layout : Layout, layout.characters = cs := by
  induction cs with
  | nil => exact ⟨⟨[], [], by simp, by simp⟩, rfl⟩
  | cons c cs ih =>
    obtain ⟨⟨pieces, trailing, hapart, htrailing⟩, rfl⟩ := ih
    cases hc : isBlank c with
    | true =>
      -- a blank widens the first gap, which is the trailing one when there are no words
      cases pieces with
      | nil =>
        refine ⟨⟨[], c :: trailing, by simp, ?_⟩, rfl⟩
        exact List.forall_mem_cons.2 ⟨hc, htrailing⟩
      | cons piece rest =>
        let wider : Piece :=
          { piece with
            gap := c :: piece.gap
            gap_blank := List.forall_mem_cons.2 ⟨hc, piece.gap_blank⟩ }
        exact ⟨⟨wider :: rest, trailing, hapart, htrailing⟩, rfl⟩
    | false =>
      let letter : Piece := ⟨[], [c], by simp, by simp, by simpa using hc⟩
      cases pieces with
      | nil => exact ⟨⟨[letter], trailing, by simp, htrailing⟩, rfl⟩
      | cons piece rest =>
        by_cases hgap : piece.gap = []
        · let longer : Piece :=
            { piece with
              word := c :: piece.word
              word_ne_nil := List.cons_ne_nil c piece.word
              word_solid := List.forall_mem_cons.2 ⟨hc, piece.word_solid⟩ }
          refine ⟨⟨longer :: rest, trailing, hapart, htrailing⟩, ?_⟩
          simp [characters, Piece.characters, longer, hgap]
        · refine ⟨⟨letter :: piece :: rest, trailing, ?_, htrailing⟩, rfl⟩
          exact List.forall_mem_cons.2 ⟨hgap, hapart⟩

/-- Every line is laid out in some way. -/
theorem exists_text_eq (line : String) : ∃ layout : Layout, layout.text = line := by
  obtain ⟨layout, hlayout⟩ := exists_characters_eq line.toList
  exact ⟨layout, by simp [text, hlayout]⟩

end Layout

/-- The lexemes of a line are parts of the line that are not empty, at the places where they stand
in it. -/
theorem Lexeme.exists_split_of_mem_ofLine {line : String} {lexeme : Lexeme}
    (h : lexeme ∈ ofLine line) :
    lexeme.characters ≠ [] ∧ ∃ before after,
      line.toList = before ++ lexeme.characters ++ after ∧ lexeme.start = byteLength before := by
  obtain ⟨layout, rfl⟩ := Layout.exists_text_eq line
  rw [Layout.ofLine_text] at h
  obtain ⟨hne, before, after, htext, hstart⟩ := Piece.exists_split_of_mem_lexemesFrom h
  refine ⟨hne, before, after ++ layout.trailing, ?_, by simpa using hstart⟩
  simp [Layout.characters, htext]

end StackLang
