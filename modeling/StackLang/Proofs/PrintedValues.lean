import Mathlib
import StackLang.Proofs.NormalForm
import StackLang.Proofs.PostfixArithmetic

/-!
# Reading back what was printed

A value is printed as `n` or as `n/d`, and the printed text determines it: the slash tells the two
forms apart, and in front of it and behind it stand decimal numerals, which determine what they
write.  The printed text is a single word.  Read back as a word it is the number again when the
value is an integer, and an unknown word otherwise.

A stack is printed as its depth and then its values, each with a space behind it.  So its values are
the words of the printed text (`Stack.sources_render`), and they determine the stack.  A line of
numbers pushes them whatever the vocabulary is (`Session.executeLine_of_numbers`), so a printed
stack of integers can be entered again.
-/

namespace StackLang

open Text

/-! ## Printed values -/

/-- A numeral has no slash in it. -/
lemma Numeral.slash_not_mem_text (numeral : Numeral) : '/' ∉ numeral.text.toList := by
  intro hslash
  rcases isDigit_or_sign_of_mem_text hslash with hdigit | hminus | hplus
  · exact absurd hdigit (by decide)
  · exact absurd hminus (by decide)
  · exact absurd hplus (by decide)

namespace Decimal

/-- A written integer has no slash in it. -/
lemma slash_not_mem_write (n : Int) : '/' ∉ (write n).toList := by
  obtain ⟨numeral, hnumeral⟩ := Numeral.exists_text_eq_write n
  rw [← hnumeral]
  exact numeral.slash_not_mem_text

/-- A written integer is one word. -/
lemma isWord_write (n : Int) : IsWord (write n) := by
  obtain ⟨numeral, hnumeral⟩ := Numeral.exists_text_eq_write n
  rw [← hnumeral]
  exact numeral.isWord_text

end Decimal

namespace Value

/-- An integer is printed without a slash. -/
lemma text_of_isInteger {v : Value} (h : v.isInteger = true) : v.text = Decimal.write v.num := by
  rw [text, if_pos h]

/-- Any other value is printed as its numerator, a slash and its denominator. -/
lemma text_of_not_isInteger {v : Value} (h : ¬ v.isInteger = true) :
    v.text = Decimal.write v.num ++ "/" ++ Decimal.write v.den := by
  rw [text, if_neg h]
  rfl

/-- A printed text has a slash exactly when the value is no integer. -/
lemma slash_mem_text_iff {v : Value} : '/' ∈ v.text.toList ↔ ¬ v.isInteger = true := by
  by_cases h : v.isInteger = true
  · rw [text_of_isInteger h]
    exact iff_of_false (Decimal.slash_not_mem_write v.num) (not_not_intro h)
  · rw [text_of_not_isInteger h]
    exact iff_of_true (by simp) h

/-- Different values are printed differently. -/
lemma text_inj {v w : Value} : v.text = w.text ↔ v = w := by
  refine ⟨fun h => ?_, congrArg text⟩
  have hform : v.isInteger = true ↔ w.isInteger = true := by
    rw [← not_iff_not, ← slash_mem_text_iff, h, slash_mem_text_iff]
  by_cases hv : v.isInteger = true
  · have hw := hform.1 hv
    rw [text_of_isInteger hv, text_of_isInteger hw, Decimal.write_inj] at h
    rw [eq_ofInt_of_isInteger hv, eq_ofInt_of_isInteger hw, h]
  · have hw := mt hform.2 hv
    rw [text_of_not_isInteger hv, text_of_not_isInteger hw, ← String.toList_inj] at h
    -- the slash is in neither numeral, so it divides both texts at the same place
    have hparts : (Decimal.write v.num).toList ++ '/' :: (Decimal.write v.den).toList =
        (Decimal.write w.num).toList ++ '/' :: (Decimal.write w.den).toList := by
      simpa using h
    rw [List.append_cons_inj_of_notMem (Decimal.slash_not_mem_write _)
      (Decimal.slash_not_mem_write _), String.toList_inj, String.toList_inj, Decimal.write_inj,
      Decimal.write_inj] at hparts
    exact Rat.ext hparts.1 (Int.ofNat_inj.1 hparts.2.2)

/-- A printed value is a word. -/
lemma isWord_text (v : Value) : IsWord v.text := by
  by_cases h : v.isInteger = true
  · rw [text_of_isInteger h]
    exact Decimal.isWord_write v.num
  · have hslash : IsWord "/" := by decide
    rw [text_of_not_isInteger h]
    exact ((Decimal.isWord_write v.num).append hslash).append (Decimal.isWord_write v.den)

end Value

/-! ## Printed values as words of a line -/

/-- No spelling holds a digit. -/
lemma Spelling.isDigit_eq_false_of_mem_text {spelling : Spelling} (h : spelling ∈ all) {c : Char}
    (hc : c ∈ spelling.text.toList) : c.isDigit = false := by
  have hall : all.all fun spelling => spelling.text.toList.all fun c => !c.isDigit := by decide
  simpa using List.all_eq_true.1 (List.all_eq_true.1 hall spelling h) c hc

/-- A fraction is printed with a digit, in its denominator. -/
lemma Value.exists_mem_text_isDigit {v : Value} (h : ¬ v.isInteger = true) :
    ∃ c ∈ v.text.toList, c.isDigit = true := by
  obtain ⟨c, hc⟩ := List.exists_mem_of_ne_nil _ (Nat.toDigits_ne_nil (b := 10) (n := v.den))
  refine ⟨c, ?_, Nat.isDigit_of_mem_toDigits (by decide) (by decide) hc⟩
  have hden : (Decimal.write v.den).toList = Nat.toDigits 10 v.den := Nat.toList_repr
  rw [text_of_not_isInteger h, String.toList_append, hden]
  exact List.mem_append_right _ hc

namespace Token

/-- A printed integer is read back as that integer. -/
lemma classify_text_of_isInteger {v : Value} (h : v.isInteger = true) :
    classify v.text = .number v := by
  have hwrite := (denotes_write v.num).classify_eq
  rwa [← Value.text_of_isInteger h, ← Value.eq_ofInt_of_isInteger h] at hwrite

/-- A printed fraction is an unknown word: it is no numeral because of its slash, and no spelling
because of its digits. -/
lemma classify_text_of_not_isInteger {v : Value} (h : ¬ v.isInteger = true) :
    classify v.text = .unknown v.text := by
  refine classify_eq_iff.2 (.unknown ?_ ?_)
  · intro numeral hnumeral
    apply numeral.slash_not_mem_text
    rw [hnumeral]
    exact Value.slash_mem_text_iff.2 h
  · intro spelling hspelling htext
    obtain ⟨c, hc, hdigit⟩ := Value.exists_mem_text_isDigit h
    have hlowered : c.toLower ∈ spelling.text.toList := by
      rw [htext, String.toList_map]
      exact List.mem_map_of_mem hc
    have hnone := Spelling.isDigit_eq_false_of_mem_text hspelling hlowered
    rw [isDigit_toLower, hdigit] at hnone
    cases hnone

end Token

/-! ## Printed stacks -/

/-- Printed values with a space behind each of them are the words of the line. -/
lemma Lexeme.sources_join_text (values : List Value) :
    sources (String.join (values.map fun v => v.text ++ " ")) = values.map Value.text := by
  have hwords : ∀ word ∈ values.map Value.text, IsWord word := by
    intro word hword
    obtain ⟨v, -, rfl⟩ := List.mem_map.1 hword
    exact v.isWord_text
  have hsources := sources_join hwords
  rwa [List.map_map] at hsources

namespace Stack

/-- The first word of a printed stack: its depth between angle brackets. -/
def heading (s : Stack Value) : String := "<" ++ s.size.repr ++ ">"

/-- What follows the first word of a printed stack: the printed values with spaces around them. -/
def body (s : Stack Value) : String := " " ++ String.join (s.toList.map fun v => v.text ++ " ")

/-- A printed stack is the depth in brackets and then the values. -/
lemma render_eq_heading_append_body (s : Stack Value) :
    s.render Value.text = s.heading ++ s.body := by
  have hbracket : "> " = ">" ++ " " := by decide
  simp only [render, heading, body, hbracket, String.append_assoc]

/-- The depth in brackets is one word. -/
lemma isWord_heading (s : Stack Value) : IsWord s.heading := by
  have hopen : IsWord "<" := by decide
  have hclose : IsWord ">" := by decide
  exact (hopen.append (Decimal.isWord_write s.size)).append hclose

/-- The words of a printed stack are its heading and its printed values, bottom first. -/
lemma sources_render (s : Stack Value) :
    Lexeme.sources (s.render Value.text) = s.heading :: s.toList.map Value.text := by
  rw [render_eq_heading_append_body, body, ← String.append_assoc,
    Lexeme.sources_append_space_append, Lexeme.sources_of_isWord s.isWord_heading,
    Lexeme.sources_join_text, List.singleton_append]

/-- The words of the values of a printed stack are their texts, bottom first. -/
lemma sources_body (s : Stack Value) : Lexeme.sources s.body = s.toList.map Value.text := by
  have hspace := Lexeme.sources_append_space_append ""
    (String.join (s.toList.map fun v => v.text ++ " "))
  rwa [String.empty_append, Lexeme.sources_empty, List.nil_append,
    Lexeme.sources_join_text] at hspace

/-- Different stacks are printed differently. -/
lemma render_inj {s t : Stack Value} : s.render Value.text = t.render Value.text ↔ s = t := by
  refine ⟨fun h => ?_, congrArg _⟩
  have hwords := s.sources_render
  rw [h, t.sources_render] at hwords
  have hinjective : Function.Injective Value.text := fun _ _ => Value.text_inj.1
  have hvalues := List.map_injective_iff.2 hinjective (List.cons.inj hwords).2
  exact (toList_inj.1 hvalues).symm

/-- The tokens behind the heading of a printed stack of integers are these integers. -/
lemma ofLine_body {s : Stack Value} (h : ∀ v ∈ s.toList, v.isInteger = true) :
    Token.ofLine s.body = s.toList.map Token.number := by
  rw [Token.ofLine_eq_map_classify, sources_body, List.map_map]
  exact List.map_congr_left fun v hv => Token.classify_text_of_isInteger (h v hv)

end Stack

/-! ## Entering printed stacks -/

/-- Numbers are pushed one after the other, whatever the vocabulary is. -/
lemma Vocabulary.run_numbers (v : Vocabulary) (values : List Value) (s : Stack Value) :
    v.run id (values.map Token.number) s = ⟨s.pushAll values, "", none⟩ := by
  induction values generalizing s with
  | nil => rfl
  | cons value rest ih =>
    have hpush : v.dispatch (id (Token.number value)) s = Effect.quiet (s.push value) := rfl
    rw [List.map_cons, run_cons_of_quiet hpush, ih]
    rfl

namespace Session

/-- A line whose tokens print nothing and do not fail displays nothing but `ok`. -/
lemma executeLine_of_run_eq {session : Session} {line : String} {after : Stack Value}
    (h : session.vocabulary.run id (Token.ofLine line) session.stack = ⟨after, "", none⟩) :
    session.executeLine line = ("ok", ⟨session.vocabulary, after, "ok", none⟩) := by
  have hrun := session.map_token_runLine line
  rw [h] at hrun
  obtain ⟨hstack, hprinted, hstop⟩ := Run.mk.inj hrun
  rw [Option.map_eq_none_iff] at hstop
  simp only [executeLine, enter_of_none hstop, hstack, hprinted]
  rfl

/-- A line of numbers pushes them and displays nothing but `ok`. -/
lemma executeLine_of_numbers {line : String} {values : List Value}
    (h : Token.ofLine line = values.map Token.number) (session : Session) :
    session.executeLine line =
      ("ok", ⟨session.vocabulary, session.stack.pushAll values, "ok", none⟩) :=
  executeLine_of_run_eq (by rw [h, Vocabulary.run_numbers])

end Session

/-- What is printed determines the value.  Two values are printed alike only when they are equal.  A
printed value is one word; as a word of a line it is that number again when the value is an integer,
and otherwise an unknown word.  Two stacks are printed alike only when they are equal, and the words
of a printed stack are its depth between angle brackets and the printed values, bottom first.  When
all of them are integers, every session, whatever its vocabulary and its stack are, takes what
stands behind the first word as a line that displays `ok` and puts the values on top of its
stack. -/
theorem printed_text_determines_value :
    (∀ v w : Value, v.text = w.text ↔ v = w) ∧
      (∀ v : Value, IsWord v.text ∧
        (v.isInteger = true → Token.classify v.text = .number v) ∧
        (v.isInteger = false → Token.classify v.text = .unknown v.text)) ∧
      (∀ s t : Stack Value, s.render Value.text = t.render Value.text ↔ s = t) ∧
      ∀ s : Stack Value,
        Lexeme.sources (s.render Value.text) =
            ("<" ++ s.size.repr ++ ">") :: s.toList.map Value.text ∧
          ∃ rest, s.render Value.text = "<" ++ s.size.repr ++ ">" ++ rest ∧
            ((∀ v ∈ s.toList, v.isInteger = true) → ∀ session : Session,
              (session.executeLine rest).1 = "ok" ∧
                (session.executeLine rest).2.lastError? = none ∧
                (session.executeLine rest).2.stack.toList =
                  session.stack.toList ++ s.toList) := by
  refine ⟨fun _ _ => Value.text_inj, fun v => ⟨v.isWord_text, ?_, ?_⟩,
    fun _ _ => Stack.render_inj, fun s => ⟨s.sources_render, s.body, ?_, ?_⟩⟩
  · exact Token.classify_text_of_isInteger
  · intro hfraction
    exact Token.classify_text_of_not_isInteger (Bool.eq_false_iff.1 hfraction)
  · exact s.render_eq_heading_append_body
  · intro hintegers session
    rw [Session.executeLine_of_numbers (Stack.ofLine_body hintegers)]
    exact ⟨rfl, rfl, Stack.toList_pushAll _ _⟩

/-- A negative number, zero and a number of two digits, entered in a session that knows no words, on
top of a fraction. -/
theorem printed_text_determines_value_three_integers :
    (∀ v ∈ (Stack.ofList [-7, 0, (42 : Value)]).toList, v.isInteger = true) ∧
      (Session.executeLine { vocabulary := .empty, stack := .ofList [1/2] } " -7 0 42 ").1 = "ok" ∧
      (Session.executeLine { vocabulary := .empty, stack := .ofList [1/2] }
        " -7 0 42 ").2.stack.toList = [1/2, -7, 0, 42] := by
  have hintegers : ∀ v ∈ (Stack.ofList [-7, 0, (42 : Value)]).toList, v.isInteger = true := by
    decide
  have hprinted : (Stack.ofList [-7, 0, (42 : Value)]).render Value.text = "<3> -7 0 42 " := by cbv
  obtain ⟨-, rest, hrender, henter⟩ :=
    printed_text_determines_value.2.2.2 (.ofList [-7, 0, (42 : Value)])
  obtain rfl : rest = " -7 0 42 " := by
    rw [hprinted] at hrender
    exact (String.append_right_inj "<3>").1 hrender.symm
  obtain ⟨hok, -, hstack⟩ := henter hintegers { vocabulary := .empty, stack := .ofList [1/2] }
  exact ⟨hintegers, hok, hstack⟩

end StackLang
