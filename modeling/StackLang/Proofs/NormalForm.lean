import Mathlib
import StackLang.Proofs.Classification
import StackLang.Proofs.SpacedWords

/-!
# The normal form of a line

A line is put into normal form by writing its tokens with single spaces between them.  Blanks of
other sorts, capital letters in names, plus signs and zeros in front of a number are lost that way,
but nothing that a token holds: what is written denotes the token that was written
(`Token.Denotes.denotes_text`), so the normal form has the tokens of the line.  Lines with the same
tokens cannot be told apart by executing them, except through the columns of their errors.
-/

namespace StackLang

open Text

/-! ## Tokens as they are written -/

/-- Digits are not blank. -/
lemma Text.isBlank_eq_false_of_isDigit {c : Char} (h : c.isDigit = true) : isBlank c = false := by
  have hrange := toNat_of_isDigit h
  exact isBlank_eq_false_of_visible (by omega) (by omega)

/-- A numeral consists of digits and signs. -/
lemma Numeral.isDigit_or_sign_of_mem_text {numeral : Numeral} {c : Char}
    (hc : c ∈ numeral.text.toList) : c.isDigit = true ∨ c = '-' ∨ c = '+' := by
  rw [text, String.toList_ofList] at hc
  unfold characters at hc
  split at hc
  · rcases List.mem_cons.1 hc with rfl | hdigit
    · exact Or.inr (Or.inl rfl)
    · exact Or.inl (isDigit_of_mem_digitCharacters hdigit)
  · rcases List.mem_cons.1 hc with rfl | hdigit
    · exact Or.inr (Or.inr rfl)
    · exact Or.inl (isDigit_of_mem_digitCharacters hdigit)
  · exact Or.inl (isDigit_of_mem_digitCharacters hc)

/-- Numerals are words. -/
lemma Numeral.isWord_text (numeral : Numeral) : IsWord numeral.text := by
  refine ⟨?_, ?_⟩
  · intro hempty
    have hnil : numeral.characters = [] := String.ofList_inj.1 hempty
    unfold characters at hnil
    split at hnil
    · cases hnil
    · cases hnil
    · exact numeral.digits_ne_nil (List.map_eq_nil_iff.1 hnil)
  · intro c hc
    rcases isDigit_or_sign_of_mem_text hc with hdigit | rfl | rfl
    · exact isBlank_eq_false_of_isDigit hdigit
    · decide
    · decide

/-- The decimal text of an integer is a numeral. -/
lemma Numeral.exists_text_eq_write (n : Int) :
    ∃ numeral : Numeral, numeral.text = Decimal.write n := by
  by_contra hnever
  have hnone := readInt?_eq_none_iff.2 (not_exists.1 hnever)
  rw [Decimal.readInt?_write] at hnone
  cases hnone

namespace Token

/-- The decimal text of an integer denotes that integer. -/
lemma denotes_write (n : Int) : Denotes (Decimal.write n) (.number (Value.ofInt n)) := by
  rw [← classify_eq_iff, classify_eq, Classifier.number]
  simp only [Decimal.readInt?_write, Option.map_some]
  rfl

/-- What is written for a token denotes that token again. -/
lemma Denotes.denotes_text {text : String} {token : Token} (h : Denotes text token) :
    Denotes token.text token := by
  cases h with
  | number numeral => exact denotes_write numeral.value
  | operator hspelling =>
    rw [text_operator_of_mem hspelling]
    exact .operator hspelling
  | word hspelling htext =>
    have hall := List.mem_append_right Spelling.symbols hspelling
    rw [text_word_of_mem hspelling]
    exact .word hspelling (Spelling.map_toLower_text hall)
  | unknown hnumeral hspelling => exact .unknown hnumeral hspelling

/-- What is written for a token that a word denotes is a word. -/
lemma Denotes.isWord_text {text : String} {token : Token} (h : Denotes text token)
    (hword : IsWord text) : IsWord token.text := by
  cases h with
  | number numeral =>
    obtain ⟨written, hwritten⟩ := Numeral.exists_text_eq_write numeral.value
    have htext : (Token.number numeral.value).text = written.text := hwritten.symm
    rw [htext]
    exact written.isWord_text
  | operator hspelling =>
    rw [text_operator_of_mem hspelling]
    exact hword
  | word hspelling htext =>
    rw [text_word_of_mem hspelling]
    exact Spelling.isWord_text (List.mem_append_right _ hspelling)
  | unknown hnumeral hspelling => exact hword

/-! ## Lines as they are written -/

/-- The tokens, written with single spaces between them. -/
def writeLine (tokens : List Token) : String := String.intercalate " " (tokens.map text)

/-- The line with its tokens written once more. -/
def normalForm (line : String) : String := writeLine (ofLine line)

/-- The tokens of a line are denoted by words. -/
lemma exists_denotes_of_mem_ofLine {line : String} {token : Token} (h : token ∈ ofLine line) :
    ∃ word, IsWord word ∧ Denotes word token := by
  rw [ofLine_eq_map_classify] at h
  obtain ⟨word, hword, rfl⟩ := List.mem_map.1 h
  exact ⟨word, Lexeme.isWord_of_mem_sources hword, classify_eq_iff.1 rfl⟩

/-- Tokens that words can denote are read back from the line that they are written as. -/
lemma ofLine_writeLine {tokens : List Token}
    (h : ∀ token ∈ tokens, ∃ word, IsWord word ∧ Denotes word token) :
    ofLine (writeLine tokens) = tokens := by
  have hwords : ∀ word ∈ tokens.map text, IsWord word := by
    intro written hwritten
    obtain ⟨token, htoken, rfl⟩ := List.mem_map.1 hwritten
    obtain ⟨word, hword, hdenotes⟩ := h token htoken
    exact hdenotes.isWord_text hword
  rw [ofLine_eq_map_classify, writeLine, Lexeme.sources_intercalate hwords, List.map_map]
  refine (List.map_congr_left fun token htoken => ?_).trans (List.map_id _)
  obtain ⟨word, -, hdenotes⟩ := h token htoken
  exact hdenotes.denotes_text.classify_eq

/-- The normal form of a line has the tokens of the line. -/
lemma ofLine_normalForm (line : String) : ofLine (normalForm line) = ofLine line :=
  ofLine_writeLine fun _ => exists_denotes_of_mem_ofLine

end Token

/-! ## Lines with the same tokens -/

namespace Session

/-- Apart from the lexeme at which it stops, the run of a line is the run of its tokens. -/
lemma map_token_runLine (session : Session) (line : String) :
    (session.runLine line).map Lexeme.token =
      session.vocabulary.run id (Token.ofLine line) session.stack := by
  have hdispatch : ∀ (lexeme : Lexeme) s, session.vocabulary.dispatch (id lexeme.token) s =
      session.vocabulary.dispatch lexeme.token s := fun _ _ => rfl
  exact (Vocabulary.run_map Lexeme.token hdispatch _ _).symm

/-- The text to display for a line, by its run. -/
lemma output_enter (session : Session) (line : String) :
    (session.enter line).output =
      (session.runLine line).printed ++
        ((session.runLine line).stop?.map Prod.snd).elim okText Diagnostic.message := by
  cases hstop : (session.runLine line).stop? with
  | none => rw [enter_of_none hstop]; rfl
  | some stop => rw [enter_of_stop hstop]; rfl

/-- The fault of a line, by its run. -/
lemma map_fault_lastError?_enter (session : Session) (line : String) :
    (session.enter line).lastError?.map Diagnostic.fault =
      ((session.runLine line).stop?.map Prod.snd).map Diagnostic.fault := by
  cases hstop : (session.runLine line).stop? with
  | none => rw [enter_of_none hstop]; rfl
  | some stop => rw [enter_of_stop hstop]; rfl

/-- Lines with the same tokens display the same text, leave the same stack and fail with the same
fault, if they fail. -/
lemma executeLine_eq_of_ofLine_eq {a b : String} (h : Token.ofLine a = Token.ofLine b)
    (session : Session) :
    (session.executeLine a).1 = (session.executeLine b).1 ∧
      (session.executeLine a).2.stack = (session.executeLine b).2.stack ∧
      (session.executeLine a).2.lastError?.map Diagnostic.fault =
        (session.executeLine b).2.lastError?.map Diagnostic.fault := by
  have hruns : (session.runLine a).map Lexeme.token = (session.runLine b).map Lexeme.token := by
    rw [map_token_runLine, map_token_runLine, h]
  obtain ⟨hstack, hprinted, hstops⟩ := Run.mk.inj hruns
  -- the lexemes at which the runs stop may differ, the errors that were raised do not
  have herrors : (session.runLine a).stop?.map Prod.snd =
      (session.runLine b).stop?.map Prod.snd := by
    simpa [Function.comp_def] using congrArg (Option.map Prod.snd) hstops
  simp only [executeLine, output_enter, stack_enter, map_fault_lastError?_enter]
  rw [hstack, hprinted, herrors]
  exact ⟨rfl, rfl, rfl⟩

end Session

/-- The normal form of a line has the tokens of the line and is its own normal form.  Every session
displays the same text for both, has the same stack after both, and meets the same fault in both or
in neither. -/
theorem Token.normalForm_keeps_tokens_and_effects (line : String) :
    Token.ofLine (Token.normalForm line) = Token.ofLine line ∧
      Token.normalForm (Token.normalForm line) = Token.normalForm line ∧
      ∀ session : Session,
        (session.executeLine (Token.normalForm line)).1 = (session.executeLine line).1 ∧
          (session.executeLine (Token.normalForm line)).2.stack =
            (session.executeLine line).2.stack ∧
          (session.executeLine (Token.normalForm line)).2.lastError?.map Diagnostic.fault =
            (session.executeLine line).2.lastError?.map Diagnostic.fault := by
  have htokens := Token.ofLine_normalForm line
  refine ⟨htokens, ?_, Session.executeLine_eq_of_ofLine_eq htokens⟩
  exact congrArg Token.writeLine htokens

/-- Signs, zeros in front, capital letters and wide blanks are lost, unknown words are kept. -/
example : Token.normalForm " +007\u3000DUP\t-0 Über " = "7 dup 0 Über" := by cbv

end StackLang
