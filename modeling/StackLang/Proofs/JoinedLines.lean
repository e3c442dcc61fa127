import Mathlib
import StackLang.Proofs.MaximalRuns
import StackLang.Proofs.SpacedWords

/-!
# Lexing joined texts

Two texts put one behind the other are lexed apart, when no word runs across the place where they
meet.  When one does, it is the last word of the first text and the first word of the second one,
and only these two are joined.

A text that ends with a word is divided in front of that word, and a text that begins with a word
behind it (`Text.exists_append_word`, `Text.exists_word_append`).  What stands on both sides of a
word is lexed on its own (`Lexeme.ofLine_append_word_append`), so the two texts and the joined one
have the same lexemes, except for the words that meet.
-/

namespace StackLang

open Text

namespace Text

/-! ## Words at the ends of a text -/

/-- A text that is empty or ends with a blank is apart from any text behind it. -/
lemma EndsBlank.apart {as : List Char} (h : EndsBlank as) (bs : List Char) : Apart as bs := by
  rcases List.eq_nil_or_concat as with rfl | ⟨front, c, rfl⟩
  · exact Or.inl rfl
  · have hc : isBlank c = true := h c (by simp)
    exact Or.inr (Or.inr (Or.inl (by simpa using hc)))

/-- A text that is empty or begins with a blank is apart from any text in front of it. -/
lemma StartsBlank.apart {bs : List Char} (h : StartsBlank bs) (as : List Char) : Apart as bs := by
  cases bs with
  | nil => exact Or.inr (Or.inl rfl)
  | cons c rest =>
    have hc : isBlank c = true := startsBlank_cons.1 h
    exact Or.inr (Or.inr (Or.inr (by simpa using hc)))

/-- The solid characters at the end of a text can be taken off. -/
lemma exists_append_solid (cs : List Char) :
    ∃ front word, cs = front ++ word ∧ EndsBlank front ∧ ∀ c ∈ word, isBlank c = false := by
  induction cs using List.reverseRecOn with
  | nil => exact ⟨[], [], rfl, by simp [EndsBlank], by simp⟩
  | append_singleton cs c ih =>
    cases hc : isBlank c with
    | true => exact ⟨cs ++ [c], [], by simp, by simpa [EndsBlank] using hc, by simp⟩
    | false =>
      obtain ⟨front, word, rfl, hfront, hsolid⟩ := ih
      refine ⟨front, word ++ [c], by simp, hfront, ?_⟩
      exact List.forall_mem_append.2 ⟨hsolid, by simpa using hc⟩

/-- The solid characters at the beginning of a text can be taken off. -/
lemma exists_solid_append (cs : List Char) :
    ∃ word rest, cs = word ++ rest ∧ StartsBlank rest ∧ ∀ c ∈ word, isBlank c = false := by
  induction cs with
  | nil => exact ⟨[], [], rfl, startsBlank_nil, by simp⟩
  | cons c cs ih =>
    cases hc : isBlank c with
    | true => exact ⟨[], c :: cs, rfl, startsBlank_cons.2 hc, by simp⟩
    | false =>
      obtain ⟨word, rest, rfl, hrest, hsolid⟩ := ih
      exact ⟨c :: word, rest, rfl, hrest, List.forall_mem_cons.2 ⟨hc, hsolid⟩⟩

/-- A text that ends with a solid character ends with a word, in front of which no word ends. -/
lemma exists_append_word {text : String} {c : Char} (hlast : text.toList.getLast? = some c)
    (hc : isBlank c = false) :
    ∃ front word, text = front ++ word ∧ EndsBlank front.toList ∧ IsWord word := by
  obtain ⟨front, word, htext, hfront, hsolid⟩ := exists_append_solid text.toList
  refine ⟨String.ofList front, String.ofList word, ?_, by simpa using hfront, ?_,
    by simpa using hsolid⟩
  · rw [← String.toList_inj]
    simpa using htext
  · intro hempty
    -- without a word the text would end with a blank
    obtain rfl : word = [] := String.ofList_inj.1 hempty
    rw [htext, List.append_nil] at hlast
    rw [hfront c hlast] at hc
    cases hc

/-- A text that begins with a solid character begins with a word, behind which no word begins. -/
lemma exists_word_append {text : String} {c : Char} (hhead : text.toList.head? = some c)
    (hc : isBlank c = false) :
    ∃ word rest, text = word ++ rest ∧ StartsBlank rest.toList ∧ IsWord word := by
  obtain ⟨word, rest, htext, hrest, hsolid⟩ := exists_solid_append text.toList
  refine ⟨String.ofList word, String.ofList rest, ?_, by simpa using hrest, ?_,
    by simpa using hsolid⟩
  · rw [← String.toList_inj]
    simpa using htext
  · intro hempty
    obtain rfl : word = [] := String.ofList_inj.1 hempty
    rw [htext, List.nil_append] at hhead
    rw [hrest c hhead] at hc
    cases hc

end Text

/-! ## Lexemes around a word -/

namespace Lexeme

/-- A lexeme moved twice is moved by the sum. -/
lemma shift_shift (lexeme : Lexeme) (bytes more : Nat) :
    (lexeme.shift bytes).shift more = lexeme.shift (bytes + more) := by
  simp [shift, Nat.add_assoc]

/-- The mark of a moved lexeme is the moved mark. -/
lemma mark_shift (lexeme : Lexeme) (bytes : Nat) :
    (lexeme.shift bytes).mark = (lexeme.mark.1.shift bytes, lexeme.mark.2) := by
  simp [mark]

/-- A lexeme that is measured off a text is what stands in its column. -/
lemma excerpt?_column (before word after : String) :
    (Lexeme.mk before.utf8ByteSize word.toList).column.excerpt? (before ++ word ++ after) =
      some ⟨before, word, after⟩ := by
  refine Column.excerpt?_eq_some_iff.2 ⟨rfl, byteLength_toList before, ?_⟩
  rw [byteLength_append, byteLength_toList]
  rfl

/-- A word at the end of a text is its last lexeme. -/
lemma ofLine_append_word {front word : String} (hfront : EndsBlank front.toList)
    (hword : IsWord word) :
    ofLine (front ++ word) = ofLine front ++ [⟨front.utf8ByteSize, word.toList⟩] := by
  rw [ofLine_append (hfront.apart _), ofLine_of_isWord hword]
  simp [shift]

/-- A word at the beginning of a text is its first lexeme. -/
lemma ofLine_word_append {word rest : String} (hword : IsWord word)
    (hrest : StartsBlank rest.toList) :
    ofLine (word ++ rest) =
      ⟨0, word.toList⟩ :: (ofLine rest).map fun lexeme => lexeme.shift word.utf8ByteSize := by
  rw [ofLine_append (hrest.apart _), ofLine_of_isWord hword]
  rfl

/-- What stands on both sides of a word is lexed on its own. -/
lemma ofLine_append_word_append {front word rest : String} (hfront : EndsBlank front.toList)
    (hword : IsWord word) (hrest : StartsBlank rest.toList) :
    ofLine (front ++ word ++ rest) =
      ofLine front ++ ⟨front.utf8ByteSize, word.toList⟩ ::
        (ofLine rest).map fun lexeme => lexeme.shift (front ++ word).utf8ByteSize := by
  rw [ofLine_append (hrest.apart _), ofLine_append_word hfront hword, List.append_assoc]
  rfl

/-- Words that meet are joined to one lexeme, and no other lexeme is changed. -/
lemma ofLine_append_of_words_meet {front word word' rest : String}
    (hfront : EndsBlank front.toList) (hword : IsWord word) (hword' : IsWord word')
    (hrest : StartsBlank rest.toList) :
    ofLine (front ++ word ++ (word' ++ rest)) =
      (ofLine (front ++ word)).dropLast ++ ⟨front.utf8ByteSize, (word ++ word').toList⟩ ::
        (ofLine (word' ++ rest)).tail.map fun lexeme =>
          lexeme.shift (front ++ word).utf8ByteSize := by
  have hjoined : IsWord (word ++ word') := hword.append hword'
  have hsize : (front ++ (word ++ word')).utf8ByteSize =
      word'.utf8ByteSize + (front ++ word).utf8ByteSize := by
    simp only [String.utf8ByteSize_append]
    omega
  calc ofLine (front ++ word ++ (word' ++ rest))
      = ofLine (front ++ (word ++ word') ++ rest) := by simp only [String.append_assoc]
    _ = ofLine front ++ ⟨front.utf8ByteSize, (word ++ word').toList⟩ ::
          (ofLine rest).map fun lexeme =>
            lexeme.shift (front ++ (word ++ word')).utf8ByteSize := by
        rw [ofLine_append_word_append hfront hjoined hrest]
    _ = _ := by
        rw [ofLine_append_word hfront hword, ofLine_word_append hword' hrest, hsize,
          List.dropLast_concat, List.tail_cons, List.map_map]
        simp only [Function.comp_def, shift_shift]

end Lexeme

/-! ## Tokens of joined texts -/

namespace Token

/-- The marks of a joined line are those of its first part and the moved ones of its second part, if
no word reaches over the seam. -/
lemma ofLineWithColumns_append_of_apart {a b : String} (h : Apart a.toList b.toList) :
    ofLineWithColumns (a ++ b) =
      ofLineWithColumns a ++
        (ofLineWithColumns b).map fun mark => (mark.1.shift a.utf8ByteSize, mark.2) := by
  simp only [ofLineWithColumns, Lexeme.ofLine_append h, List.map_append, List.map_map,
    Function.comp_def, Lexeme.mark_shift]

/-- Lexing is compositional at blanks.  Let one text be put in front of another.  When one of them
is empty, the first one ends with a blank or the second one begins with one, the tokens of the
joined text are those of the first one and, with their columns moved to the right by the bytes of
the first one, those of the second one.  When the first one ends and the second one begins with a
solid character, there is one token less: the last token of the first text and the first one of the
second text give way to a single token, which has the column that reaches from the beginning of the
one to the end of the other and classifies the two words put together. -/
theorem ofLineWithColumns_append (a b : String) :
    (Apart a.toList b.toList →
      ofLineWithColumns (a ++ b) =
        ofLineWithColumns a ++
          (ofLineWithColumns b).map fun mark => (mark.1.shift a.utf8ByteSize, mark.2)) ∧
    ∀ c d, a.toList.getLast? = some c → isBlank c = false →
      b.toList.head? = some d → isBlank d = false →
        ∃ left token right token' joined before word word' after,
          (ofLineWithColumns a).getLast? = some (left, token) ∧
          left.excerpt? a = some ⟨before, word, ""⟩ ∧
          (ofLineWithColumns b).head? = some (right, token') ∧
          right.excerpt? b = some ⟨"", word', after⟩ ∧
          joined = ⟨left.start, right.stop + a.utf8ByteSize⟩ ∧
          joined.excerpt? (a ++ b) = some ⟨before, word ++ word', after⟩ ∧
          ofLineWithColumns (a ++ b) =
            (ofLineWithColumns a).dropLast ++ (joined, classify (word ++ word')) ::
              (ofLineWithColumns b).tail.map (fun mark =>
                (mark.1.shift a.utf8ByteSize, mark.2)) ∧
          (ofLineWithColumns (a ++ b)).length + 1 =
            (ofLineWithColumns a).length + (ofLineWithColumns b).length := by
  refine ⟨ofLineWithColumns_append_of_apart, ?_⟩
  intro c d hlast hc hhead hd
  obtain ⟨front, word, rfl, hfront, hword⟩ := exists_append_word hlast hc
  obtain ⟨word', rest, rfl, hrest, hword'⟩ := exists_word_append hhead hd
  let last : Lexeme := ⟨front.utf8ByteSize, word.toList⟩
  let first : Lexeme := ⟨0, word'.toList⟩
  let joined : Lexeme := ⟨front.utf8ByteSize, (word ++ word').toList⟩
  have hleft := Lexeme.ofLine_append_word hfront hword
  have hright := Lexeme.ofLine_word_append hword' hrest
  have hwhole := Lexeme.ofLine_append_of_words_meet hfront hword hword' hrest
  refine ⟨last.column, last.token, first.column, first.token, joined.column, front, word, word',
    rest, ?_, ?_, ?_, ?_, ?_, ?_, ?_, ?_⟩
  · simp [ofLineWithColumns, hleft, Lexeme.mark, last]
  · simpa using Lexeme.excerpt?_column front word ""
  · simp [ofLineWithColumns, hright, Lexeme.mark, first]
  · simpa using Lexeme.excerpt?_column "" word' rest
  · simp only [Lexeme.column, joined, last, first, String.toList_append, byteLength_append,
      byteLength_toList, String.utf8ByteSize_append, Column.mk.injEq, true_and]
    omega
  · have htext : front ++ word ++ (word' ++ rest) = front ++ (word ++ word') ++ rest := by
      simp only [String.append_assoc]
    rw [htext]
    exact Lexeme.excerpt?_column front (word ++ word') rest
  · have htoken : joined.mark = (joined.column, classify (word ++ word')) := by
      simp [Lexeme.mark, Lexeme.token, Lexeme.source, joined]
    simp only [ofLineWithColumns, hwhole, List.map_append, List.map_cons, List.map_map,
      Function.comp_def, Lexeme.mark_shift, List.map_dropLast, List.map_tail, ← htoken]
    rfl
  · simp only [ofLineWithColumns, hwhole, hleft, hright, List.dropLast_concat, List.tail_cons,
      List.length_map, List.length_append, List.length_cons, List.length_nil]
    omega

/-- A blank behind the first text keeps its last word, a letter of two bytes, apart.  Without it a
digit meets a digit, and the two are the number 12. -/
theorem ofLineWithColumns_append_digits_meet :
    Apart "ü ".toList "2 dup".toList ∧
      ofLineWithColumns ("ü " ++ "2 dup") =
        [(⟨0, 2⟩, .unknown "ü"), (⟨3, 4⟩, .number 2), (⟨5, 8⟩, .word .dup)] ∧
      "ü 1".toList.getLast? = some '1' ∧ isBlank '1' = false ∧
      "2 dup".toList.head? = some '2' ∧ isBlank '2' = false ∧
      ofLineWithColumns ("ü 1" ++ "2 dup") =
        [(⟨0, 2⟩, .unknown "ü"), (⟨3, 5⟩, .number 12), (⟨6, 9⟩, .word .dup)] := by
  have hfirst : ofLineWithColumns "ü " = [(⟨0, 2⟩, .unknown "ü")] := by cbv
  have hsplit : ofLineWithColumns "ü 1" = [(⟨0, 2⟩, .unknown "ü"), (⟨3, 4⟩, .number 1)] := by cbv
  have hsecond : ofLineWithColumns "2 dup" = [(⟨0, 1⟩, .number 2), (⟨2, 5⟩, .word .dup)] := by cbv
  have hapart : Apart "ü ".toList "2 dup".toList := by decide
  have hlast : "ü 1".toList.getLast? = some '1' := by decide
  have hhead : "2 dup".toList.head? = some '2' := by decide
  refine ⟨hapart, ?_, hlast, by decide, hhead, by decide, ?_⟩
  · rw [(ofLineWithColumns_append _ _).1 hapart, hfirst, hsecond]
    decide
  · obtain ⟨left, token, right, token', joined, before, word, word', after, hleft, hword, hright,
      hword', rfl, -, htokens, -⟩ :=
      (ofLineWithColumns_append _ _).2 '1' '2' hlast (by decide) hhead (by decide)
    rw [hsplit] at hleft
    rw [hsecond] at hright
    cases hleft
    cases hright
    have hone : (⟨3, 4⟩ : Column).excerpt? "ü 1" = some ⟨"ü ", "1", ""⟩ := by decide
    have htwo : (⟨0, 1⟩ : Column).excerpt? "2 dup" = some ⟨"", "2", " dup"⟩ := by decide
    cases hone.symm.trans hword
    cases htwo.symm.trans hword'
    rw [htokens, hsplit, hsecond]
    decide

end Token

end StackLang
