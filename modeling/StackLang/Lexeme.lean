import StackLang.Column
import StackLang.Text.Blank
import StackLang.Token.Classifier

/-!
# Lexemes

A line is divided into its lexemes, the maximal runs of characters that are not blank.  A lexeme
remembers where in the line it begins, counted in bytes, and which characters it holds; its column
and its token follow from these.
-/

namespace StackLang

/-- A word of a line together with its place. -/
structure Lexeme where
  /-- The byte offset of the first character. -/
  start : Nat
  /-- The characters, as they stand in the line. -/
  characters : List Char
  deriving DecidableEq

namespace Lexeme

/-- The text of the lexeme. -/
def source (lexeme : Lexeme) : String := String.ofList lexeme.characters

/-- The part of the line that the lexeme takes up. -/
def column (lexeme : Lexeme) : Column :=
  ⟨lexeme.start, lexeme.start + Text.byteLength lexeme.characters⟩

/-- What the lexeme stands for. -/
def token (lexeme : Lexeme) : Token := Token.classify lexeme.source

/-- The place of the lexeme and what it stands for. -/
def mark (lexeme : Lexeme) : Column × Token := (lexeme.column, lexeme.token)

/-- The lexeme moved to the right. -/
def shift (lexeme : Lexeme) (bytes : Nat) : Lexeme :=
  ⟨lexeme.start + bytes, lexeme.characters⟩

/-- Puts a character that is not blank and stands at `offset` in front of the lexemes that follow
it.  It joins the next lexeme when that one begins right behind it, and is a lexeme of its own
otherwise. -/
def attach (offset : Nat) (c : Char) : List Lexeme → List Lexeme
  | [] => [⟨offset, [c]⟩]
  | next :: rest =>
    if next.start = offset + c.utf8Size then ⟨offset, c :: next.characters⟩ :: rest
    else ⟨offset, [c]⟩ :: next :: rest

/-- The lexemes of a text that begins at `offset`. -/
def scan (offset : Nat) : List Char → List Lexeme
  | [] => []
  | c :: cs =>
    if Text.isBlank c then scan (offset + c.utf8Size) cs
    else attach offset c (scan (offset + c.utf8Size) cs)

/-- The lexemes of a line, in order. -/
def ofLine (line : String) : List Lexeme := scan 0 line.toList

/-- No characters have no lexemes. -/
@[simp] theorem scan_nil (offset : Nat) : scan offset [] = [] := rfl

/-- A blank is skipped. -/
theorem scan_cons_of_isBlank {c : Char} (h : Text.isBlank c = true) (offset : Nat)
    (cs : List Char) : scan offset (c :: cs) = scan (offset + c.utf8Size) cs := by
  simp [scan, h]

/-- A character that is no blank joins the lexeme right behind it, or is a lexeme of its own. -/
theorem scan_cons_of_not_isBlank {c : Char} (h : Text.isBlank c = false) (offset : Nat)
    (cs : List Char) :
    scan offset (c :: cs) = attach offset c (scan (offset + c.utf8Size) cs) := by
  simp [scan, h]

/-- A lexeme is moved together with its place. -/
@[simp] theorem column_shift (lexeme : Lexeme) (bytes : Nat) :
    (lexeme.shift bytes).column = lexeme.column.shift bytes := by
  simp only [shift, column, Column.shift, Column.mk.injEq, true_and]
  omega

/-- Moving a lexeme keeps its text. -/
@[simp] theorem source_shift (lexeme : Lexeme) (bytes : Nat) :
    (lexeme.shift bytes).source = lexeme.source := rfl

/-- Moving a lexeme keeps its token. -/
@[simp] theorem token_shift (lexeme : Lexeme) (bytes : Nat) :
    (lexeme.shift bytes).token = lexeme.token := rfl

end Lexeme

/-- The tokens of a line, in order. -/
def Token.ofLine (line : String) : List Token := (Lexeme.ofLine line).map Lexeme.token

/-- The tokens of a line with their columns, in order. -/
def Token.ofLineWithColumns (line : String) : List (Column × Token) :=
  (Lexeme.ofLine line).map Lexeme.mark

end StackLang
