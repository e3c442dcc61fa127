import StackLang.Proofs.LineSplitting

/-!
# Words with spaces between them

A word is a text without blanks that is not empty (`Text.IsWord`), and the sources of the lexemes
of a line are its words.  A line that was put together from words, with a single space between any
two of them, is lexed to exactly these words, and so is one with a space behind each word.
-/

namespace StackLang

open Text

/-- A text that is not empty and holds no blanks. -/
def Text.IsWord (text : String) : Prop :=
  text ≠ "" ∧ ∀ c ∈ text.toList, isBlank c = false

instance (text : String) : Decidable (IsWord text) :=
  decidable_of_iff ((text != "" && text.toList.all fun c => !isBlank c) = true) (by simp [IsWord])

/-- A word has characters. -/
lemma Text.IsWord.toList_ne_nil {text : String} (h : IsWord text) : text.toList ≠ [] := by
  intro hnil
  exact h.1 (String.toList_inj.1 hnil)

/-- Words behind one another make a word. -/
lemma Text.IsWord.append {a b : String} (ha : IsWord a) (hb : IsWord b) : IsWord (a ++ b) := by
  refine ⟨?_, ?_⟩
  · intro hempty
    exact ha.1 (String.append_eq_empty_iff.1 hempty).1
  · rw [String.toList_append]
    exact List.forall_mem_append.2 ⟨ha.2, hb.2⟩

/-- The spellings are words. -/
lemma Spelling.isWord_text {spelling : Spelling} (h : spelling ∈ all) : IsWord spelling.text := by
  have hall : all.all fun spelling => decide (IsWord spelling.text) := by decide
  exact of_decide_eq_true (List.all_eq_true.1 hall spelling h)

namespace Lexeme

/-- A word is the only lexeme of the line that consists of it. -/
lemma ofLine_of_isWord {text : String} (h : IsWord text) : ofLine text = [⟨0, text.toList⟩] := by
  have hscan := scan_word h.toList_ne_nil h.2 startsBlank_nil 0
  rwa [List.append_nil, scan_nil] at hscan

/-- The sources of the lexemes of a line, in order. -/
def sources (line : String) : List String := (ofLine line).map source

/-- A word alone is the only word of its text. -/
lemma sources_of_isWord {text : String} (h : IsWord text) : sources text = [text] := by
  simp [sources, ofLine_of_isWord h, source]

/-- Joined texts have the words of the one and then those of the other. -/
lemma sources_append {a b : String} (h : Apart a.toList b.toList) :
    sources (a ++ b) = sources a ++ sources b := by
  have hsource : source ∘ (fun lexeme : Lexeme => lexeme.shift a.utf8ByteSize) = source :=
    funext fun lexeme => lexeme.source_shift a.utf8ByteSize
  rw [sources, ofLine_append h, List.map_append, List.map_map, hsource]
  rfl

/-- The empty text has no words. -/
@[simp] lemma sources_empty : sources "" = [] := by decide

/-- A space has no words. -/
@[simp] lemma sources_space : sources " " = [] := by decide

/-- A space behind a line adds no word. -/
lemma sources_append_space (line : String) : sources (line ++ " ") = sources line := by
  have hspace : Apart line.toList " ".toList := Or.inr (Or.inr (Or.inr (by decide)))
  rw [sources_append hspace, sources_space, List.append_nil]

/-- A space in front of a line keeps it apart from any text in front of the space. -/
lemma sources_append_space_append (a b : String) :
    sources (a ++ " " ++ b) = sources a ++ sources b := by
  have hend : Apart (a ++ " ").toList b.toList := by
    refine Or.inr (Or.inr (Or.inl ?_))
    simp
  rw [sources_append hend, sources_append_space]

/-- Words with single spaces between them are the words of the line. -/
lemma sources_intercalate {words : List String} (h : ∀ word ∈ words, IsWord word) :
    sources (String.intercalate " " words) = words := by
  induction words with
  | nil => simp
  | cons first rest ih =>
    obtain ⟨hfirst, hrest⟩ := List.forall_mem_cons.1 h
    rcases rest with _ | ⟨second, rest⟩
    · rw [String.intercalate_singleton, sources_of_isWord hfirst]
    · rw [String.intercalate_cons_cons, sources_append_space_append, sources_of_isWord hfirst,
        ih hrest, List.singleton_append]

/-- Words with a space behind each of them are the words of the line. -/
lemma sources_join {words : List String} (h : ∀ word ∈ words, IsWord word) :
    sources (String.join (words.map fun word => word ++ " ")) = words := by
  induction words with
  | nil => simp
  | cons first rest ih =>
    obtain ⟨hfirst, hrest⟩ := List.forall_mem_cons.1 h
    rw [List.map_cons, String.join_cons, sources_append_space_append, sources_of_isWord hfirst,
      ih hrest, List.singleton_append]

/-- The words of a line are words. -/
lemma isWord_of_mem_sources {line text : String} (h : text ∈ sources line) : IsWord text := by
  obtain ⟨layout, rfl⟩ := Layout.exists_text_eq line
  rw [sources, ← layout.words_eq] at h
  obtain ⟨piece, -, rfl⟩ := List.mem_map.1 h
  refine ⟨?_, ?_⟩
  · intro hempty
    have hnil : (String.ofList piece.word).toList = [] := by rw [hempty]; rfl
    exact piece.word_ne_nil (by simpa using hnil)
  · intro c hc
    exact piece.word_solid c (by simpa using hc)

end Lexeme

/-- The tokens of a line are those of its words. -/
lemma Token.ofLine_eq_map_classify (line : String) :
    Token.ofLine line = (Lexeme.sources line).map Token.classify := by
  rw [Token.ofLine, Lexeme.sources, List.map_map]
  rfl

end StackLang
