import Mathlib
import StackLang.Proofs.Classification
import StackLang.Proofs.SpacedWords
import StackLang.Proofs.StackEffects

/-!
# The words that `words` lists

A session lists the spellings of the opcodes that its vocabulary contains.  These are exactly the
words that it understands besides the numerals: a word is reported as undefined when it is no
numeral and, lowered, not among the listed spellings.  The listing can itself be read as a line, and
then every word of it is one that the vocabulary contains.

Four things have to agree for this: the two tables of spellings, letter case, the vocabulary, and
the faults that the meanings themselves raise.  They meet in `Vocabulary.Knows`, what a vocabulary
understands of a token.
-/

namespace StackLang

open Text

/-! ## What a vocabulary understands -/

namespace Vocabulary

/-- The vocabulary gives the token a meaning.  Numbers have one in every vocabulary. -/
def Knows (v : Vocabulary) : Token → Prop
  | .number _ => True
  | .operator op => v.contains op = true
  | .word op => v.contains op = true
  | .unknown _ => False

variable {v : Vocabulary}

/-- An opcode is reported as undefined exactly when the vocabulary does not contain it. -/
lemma exists_undefinedWord_execute_iff {op : Opcode} {s : Stack Value} :
    (∃ d, (v.execute op s).error? = some d ∧ d.fault = .undefinedWord) ↔
      ¬ v.contains op = true := by
  constructor
  · rintro ⟨d, hd, hfault⟩ hcontains
    exact fault_execute_ne_undefinedWord hcontains hd hfault
  · intro hmissing
    rw [execute_of_contains_eq_false (Bool.eq_false_iff.2 hmissing)]
    exact ⟨.raise .undefinedWord, rfl, rfl⟩

/-- A token is reported as undefined exactly when the vocabulary does not know it. -/
lemma exists_undefinedWord_dispatch_iff {token : Token} {s : Stack Value} :
    (∃ d, (v.dispatch token s).error? = some d ∧ d.fault = .undefinedWord) ↔ ¬ v.Knows token := by
  cases token with
  | number value => simp [dispatch, Effect.number, Effect.quiet, Knows]
  | operator op => exact exists_undefinedWord_execute_iff
  | word op => exact exists_undefinedWord_execute_iff
  | unknown text => simp [dispatch, Effect.failure, Knows]

/-- A spelling is listed exactly when its opcode is contained. -/
lemma text_mem_spellings_iff {spelling : Spelling} (h : spelling ∈ Spelling.all) :
    spelling.text ∈ v.spellings ↔ v.contains spelling.opcode = true := by
  rw [mem_spellings]
  constructor
  · rintro ⟨other, hother, hcontains, htext⟩
    rwa [← Spelling.eq_of_mem_all hother h htext]
  · intro hcontains
    exact ⟨spelling, h, hcontains, rfl⟩

/-- A vocabulary that contains an opcode lists something. -/
lemma spellings_ne_nil {op : Opcode} (h : v.contains op = true) : v.spellings ≠ [] := by
  obtain ⟨spelling, hspelling, rfl⟩ := Spelling.exists_mem_all op
  exact List.ne_nil_of_mem ((text_mem_spellings_iff hspelling).2 h)

end Vocabulary

/-- What a text stands for is known exactly when the text is a numeral or, lowered, a listed
spelling. -/
lemma Token.Denotes.knows_iff {text : String} {token : Token} (h : Denotes text token)
    (v : Vocabulary) :
    v.Knows token ↔
      (∃ numeral : Numeral, numeral.text = text) ∨ text.map Char.toLower ∈ v.spellings := by
  -- symbols and names are known for the same reason, whichever table spells them
  have hopcode : ∀ op, token.opcode? = some op →
      (v.contains op = true ↔
        (∃ numeral : Numeral, numeral.text = text) ∨ text.map Char.toLower ∈ v.spellings) := by
    intro op hop
    obtain ⟨hspelled, hnumeral⟩ := h.spelled hop
    rw [or_iff_right fun ⟨numeral, htext⟩ => hnumeral numeral htext]
    exact (Vocabulary.text_mem_spellings_iff hspelled).symm
  cases h with
  | number numeral => exact iff_of_true trivial (Or.inl ⟨numeral, rfl⟩)
  | operator hspelling => exact hopcode _ rfl
  | word hspelling htext => exact hopcode _ rfl
  | unknown hnumeral hspelling =>
    refine iff_of_false id ?_
    rintro (⟨numeral, htext⟩ | hlisted)
    · exact hnumeral numeral htext
    · obtain ⟨spelling, hmem, -, htext⟩ := Vocabulary.mem_spellings.1 hlisted
      exact hspelling spelling hmem htext

/-! ## Lines of one word -/

namespace Session

/-- The error of a line of one word is the error of that word, at its place. -/
lemma lastError?_executeLine_of_isWord {word : String} (h : IsWord word) (session : Session) :
    (session.executeLine word).2.lastError? =
      (session.vocabulary.dispatch (Token.classify word) session.stack).error?.map
        (diagnose ⟨0, word.toList⟩) := by
  have htoken : (Lexeme.mk 0 word.toList).token = Token.classify word := by
    simp [Lexeme.token, Lexeme.source]
  have hrun : session.runLine word =
      session.vocabulary.run Lexeme.token [⟨0, word.toList⟩] session.stack := by
    rw [runLine, Lexeme.ofLine_of_isWord h]
  cases hdispatch : (session.vocabulary.dispatch (Token.classify word) session.stack).error? with
  | none =>
    rw [← htoken] at hdispatch
    have hstop : (session.runLine word).stop? = none := by
      rw [hrun, Vocabulary.run_cons_of_none hdispatch]
      rfl
    simp [executeLine, enter_of_none hstop]
  | some d =>
    rw [← htoken] at hdispatch
    have hstop : (session.runLine word).stop? = some (⟨0, word.toList⟩, d) := by
      rw [hrun, Vocabulary.run_cons_of_error hdispatch]
    simp [executeLine, enter_of_stop hstop]

/-- A line of one word is reported as undefined exactly when the vocabulary does not know the
word. -/
lemma exists_undefinedWord_executeLine_iff {word : String} (h : IsWord word) (session : Session) :
    (∃ e, (session.executeLine word).2.lastError? = some e ∧ e.fault = .undefinedWord) ↔
      ¬ session.vocabulary.Knows (Token.classify word) := by
  rw [lastError?_executeLine_of_isWord h, ← Vocabulary.exists_undefinedWord_dispatch_iff]
  constructor
  · rintro ⟨e, he, hfault⟩
    obtain ⟨d, hd, rfl⟩ := Option.map_eq_some_iff.1 he
    exact ⟨d, hd, hfault⟩
  · rintro ⟨d, hd, hfault⟩
    exact ⟨_, Option.map_eq_some_iff.2 ⟨d, hd, rfl⟩, hfault⟩

end Session

/-! ## The listing -/

/-- The listed words, each with a space behind it. -/
def Vocabulary.listing (v : Vocabulary) : String :=
  String.join (v.spellings.map fun text => text ++ " ")

/-- Spaces between words and one at the end are a space behind each word. -/
lemma Text.intercalate_append_space {words : List String} (h : words ≠ []) :
    String.intercalate " " words ++ " " = String.join (words.map fun text => text ++ " ") := by
  induction words with
  | nil => exact absurd rfl h
  | cons first rest ih =>
    rcases rest with _ | ⟨second, rest⟩
    · simp
    · have htail := ih (List.cons_ne_nil second rest)
      rw [String.intercalate_cons_cons, String.append_assoc, htail, ← String.join_cons]
      rfl

/-- A spelling stands for its opcode, and the token is written as that spelling. -/
lemma Spelling.classify_text {spelling : Spelling} (h : spelling ∈ all) :
    (Token.classify spelling.text).opcode? = some spelling.opcode ∧
      (Token.classify spelling.text).text = spelling.text := by
  rcases List.mem_append.1 h with hsymbol | hname
  · rw [Token.classify_symbol hsymbol]
    exact ⟨rfl, Token.text_operator_of_mem hsymbol⟩
  · rw [Token.classify_name hname]
    exact ⟨rfl, Token.text_word_of_mem hname⟩

namespace Vocabulary

variable {v : Vocabulary}

/-- The words of the listing are the listed spellings. -/
lemma sources_listing (v : Vocabulary) : Lexeme.sources v.listing = v.spellings := by
  refine Lexeme.sources_join fun word hword => ?_
  obtain ⟨spelling, hspelling, -, rfl⟩ := mem_spellings.1 hword
  exact Spelling.isWord_text hspelling

/-- The tokens of the listing are written as the listed spellings. -/
lemma map_text_ofLine_listing (v : Vocabulary) :
    (Token.ofLine v.listing).map Token.text = v.spellings := by
  rw [Token.ofLine_eq_map_classify, sources_listing, List.map_map]
  refine (List.map_congr_left fun word hword => ?_).trans (List.map_id _)
  obtain ⟨spelling, hspelling, -, rfl⟩ := mem_spellings.1 hword
  exact (Spelling.classify_text hspelling).2

/-- The tokens of the listing have opcodes that the vocabulary contains. -/
lemma exists_opcode?_of_mem_ofLine_listing {token : Token} (h : token ∈ Token.ofLine v.listing) :
    ∃ op, token.opcode? = some op ∧ v.contains op = true := by
  rw [Token.ofLine_eq_map_classify, sources_listing] at h
  obtain ⟨word, hword, rfl⟩ := List.mem_map.1 h
  obtain ⟨spelling, hspelling, hcontains, rfl⟩ := mem_spellings.1 hword
  exact ⟨spelling.opcode, (Spelling.classify_text hspelling).1, hcontains⟩

end Vocabulary

namespace Session

/-- An opcode that means `words` adds the listing to the output and changes nothing else. -/
lemma execute_of_meaning?_eq_words {session : Session} {op : Opcode}
    (h : session.vocabulary.meaning? op = some .words) :
    session.execute op =
      (none, { session with output := session.output ++ session.vocabulary.listing }) := by
  have hcontains : session.vocabulary.contains op = true := by simp [Vocabulary.contains, h]
  have heffect : session.vocabulary.execute op session.stack =
      ⟨session.stack, session.vocabulary.listing, none⟩ := by
    rw [Vocabulary.listing, ← intercalate_append_space (Vocabulary.spellings_ne_nil hcontains)]
    simp only [Vocabulary.execute, h]
    rw [(Opcode.Performs.words session.stack.toList).effect_eq, Stack.ofList_toList]
  rw [execute_eq_absorb, heffect, absorb]

/-- A session lists exactly what it executes.  A word is reported as undefined exactly when it is
no numeral and, lowered, not a listed spelling.  An opcode that means `words` prints the listed
spellings in order, each with a space behind it, and changes nothing but the output; read as a line,
this listing has one token for each spelling, written as that spelling, and the opcodes of these
tokens are contained in the vocabulary. -/
theorem words_lists_what_executes (session : Session) :
    (∀ word, IsWord word →
      ((∃ e, (session.executeLine word).2.lastError? = some e ∧ e.fault = .undefinedWord) ↔
        (¬ ∃ numeral : Numeral, numeral.text = word) ∧
          word.map Char.toLower ∉ session.vocabulary.spellings)) ∧
      ∀ op, session.vocabulary.meaning? op = some .words →
        session.execute op =
            (none, { session with output := session.output ++ session.vocabulary.listing }) ∧
          (Token.ofLine session.vocabulary.listing).map Token.text =
            session.vocabulary.spellings ∧
          ∀ token ∈ Token.ofLine session.vocabulary.listing,
            ∃ listed, token.opcode? = some listed ∧
              session.vocabulary.contains listed = true := by
  refine ⟨?_, ?_⟩
  · intro word hword
    have hdenotes : Token.Denotes word (Token.classify word) := Token.classify_eq_iff.1 rfl
    rw [exists_undefinedWord_executeLine_iff hword, hdenotes.knows_iff, not_or]
  · intro op hop
    refine ⟨execute_of_meaning?_eq_words hop, Vocabulary.map_text_ofLine_listing _, ?_⟩
    intro token htoken
    exact Vocabulary.exists_opcode?_of_mem_ofLine_listing htoken

/-- A vocabulary of two words, in which `dup` means `words`: capital letters are understood, `drop`
is not, and `dup` lists both words. -/
theorem words_lists_what_executes_dup :
    IsWord "DUP" ∧ IsWord "Drop" ∧
      ¬ (∃ e, ((new ⟨[(.dup, .words), (.plus, .minus)]⟩).executeLine "DUP").2.lastError? = some e ∧
        e.fault = .undefinedWord) ∧
      (∃ e, ((new ⟨[(.dup, .words), (.plus, .minus)]⟩).executeLine "Drop").2.lastError? = some e ∧
        e.fault = .undefinedWord) ∧
      (new ⟨[(.dup, .words), (.plus, .minus)]⟩).execute .dup =
        (none, { vocabulary := ⟨[(.dup, .words), (.plus, .minus)]⟩, output := "+ dup " }) := by
  obtain ⟨hundefined, hlisting⟩ :=
    words_lists_what_executes (new ⟨[(.dup, .words), (.plus, .minus)]⟩)
  have hupper : "DUP".map Char.toLower = "dup" := by cbv
  have hdrop : "Drop".map Char.toLower = "drop" := by cbv
  have hnumeral : Decimal.readInt? "Drop".toList = none := by decide
  refine ⟨by decide, by decide, ?_, ?_, (hlisting .dup rfl).1⟩
  · rw [hundefined "DUP" (by decide), hupper]
    exact fun h => h.2 (by decide)
  · refine (hundefined "Drop" (by decide)).2 ⟨?_, ?_⟩
    · rintro ⟨numeral, htext⟩
      exact Numeral.readInt?_eq_none_iff.1 hnumeral numeral htext
    · rw [hdrop]
      decide

end Session

end StackLang
