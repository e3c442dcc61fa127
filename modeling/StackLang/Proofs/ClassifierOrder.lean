import Mathlib
import StackLang.Proofs.Classification

/-!
# The order of the classifiers

Three of the four classifiers accept words of one sort each, and the last one accepts every word.
What the three accept is said here exactly, for any text at all: numerals, symbols, and names in any
letter case.  No text is accepted by two of them, because what a text denotes is unique
(`Token.classify_eq_iff`).  So the order in which the three are asked does not matter
(`Classifier.classifyWith_of_perm`); only the last one has to stay last.
-/

namespace StackLang

/-! ## What a table spells -/

namespace Spelling

variable {table : List Spelling} {text : String}

/-- The opcode found in a table is the one that the table spells so. -/
lemma opcode?_eq_some_iff (htable : ∀ spelling ∈ table, spelling ∈ all) {op : Opcode} :
    opcode? table text = some op ↔ ⟨text, op⟩ ∈ table := by
  constructor
  · intro h
    obtain ⟨spelling, hfound, rfl⟩ := Option.map_eq_some_iff.1 h
    have htext : spelling.text = text := by simpa using List.find?_some hfound
    rw [← htext]
    exact List.mem_of_find?_eq_some hfound
  · intro hmem
    have hsome : opcode? table text ≠ none := fun hnone =>
      opcode?_eq_none_iff.1 hnone _ hmem rfl
    obtain ⟨found, hfound⟩ := Option.ne_none_iff_exists'.1 hsome
    obtain ⟨spelling, hspelling, rfl⟩ := Option.map_eq_some_iff.1 hfound
    have htext : spelling.text = text := by simpa using List.find?_some hspelling
    -- both spellings stand in the tables, where no text is spelled twice
    have hsame : spelling = ⟨text, op⟩ :=
      eq_of_mem_all (htable _ (List.mem_of_find?_eq_some hspelling)) (htable _ hmem) htext
    rw [hfound, hsame]

/-- A table spells the texts that it lists. -/
lemma opcode?_ne_none_iff : opcode? table text ≠ none ↔ text ∈ table.map Spelling.text := by
  rw [ne_eq, opcode?_eq_none_iff]
  simp

end Spelling

/-! ## What each classifier accepts -/

namespace Classifier

/-- The classifiers that accept words of one sort only. -/
def specific : List Classifier := [number, operator, word]

/-- The rule that accepts everything comes last. -/
lemma all_eq_specific_append : all = specific ++ [unknown] := rfl

/-- The specific rules are among all rules. -/
lemma mem_all_of_mem_specific {rule : Classifier} (h : rule ∈ specific) : rule ∈ all :=
  List.mem_append_left [unknown] h

variable {text : String} {token : Token}

/-- The number classifier accepts the numerals and yields their values. -/
lemma number_accept_eq_some_iff :
    number.accept text = some token ↔
      ∃ numeral : Numeral, numeral.text = text ∧ token = .number numeral.value := by
  constructor
  · intro h
    obtain ⟨n, hread, rfl⟩ := Option.map_eq_some_iff.1 h
    have hsome : Decimal.readInt? text.toList ≠ none := by simp [hread]
    obtain ⟨numeral, hnumeral⟩ := Numeral.exists_characters_eq hsome
    rw [← hnumeral, numeral.readInt?_characters] at hread
    obtain rfl := Option.some.inj hread
    exact ⟨numeral, by rw [Numeral.text, hnumeral, String.ofList_toList], rfl⟩
  · rintro ⟨numeral, rfl, rfl⟩
    simp only [number, Numeral.text, String.toList_ofList, numeral.readInt?_characters,
      Option.map_some]
    rfl

/-- The operator classifier accepts the symbols as they are. -/
lemma operator_accept_eq_some_iff :
    operator.accept text = some token ↔
      ∃ op, ⟨text, op⟩ ∈ Spelling.symbols ∧ token = .operator op := by
  have hsymbols : ∀ spelling ∈ Spelling.symbols, spelling ∈ Spelling.all :=
    fun _ => List.mem_append_left _
  simp only [operator, Option.map_eq_some_iff, Spelling.opcode?_eq_some_iff hsymbols,
    @eq_comm _ token]

/-- The word classifier accepts the names in any letter case. -/
lemma word_accept_eq_some_iff :
    word.accept text = some token ↔
      ∃ op, ⟨text.map Char.toLower, op⟩ ∈ Spelling.names ∧ token = .word op := by
  have hnames : ∀ spelling ∈ Spelling.names, spelling ∈ Spelling.all :=
    fun _ => List.mem_append_right _
  simp only [word, Option.map_eq_some_iff, Spelling.opcode?_eq_some_iff hnames, @eq_comm _ token]

/-- A text denotes what one of the three classifiers makes of it. -/
lemma denotes_of_accept {rule : Classifier} (hrule : rule ∈ specific)
    (h : rule.accept text = some token) : Token.Denotes text token := by
  simp only [specific, List.mem_cons, List.not_mem_nil, or_false] at hrule
  rcases hrule with rfl | rfl | rfl
  · obtain ⟨numeral, rfl, rfl⟩ := number_accept_eq_some_iff.1 h
    exact .number numeral
  · obtain ⟨op, hop, rfl⟩ := operator_accept_eq_some_iff.1 h
    exact .operator hop
  · obtain ⟨op, hop, rfl⟩ := word_accept_eq_some_iff.1 h
    exact .word hop rfl

/-- Each of the three classifiers decides alone, whatever stands in front of it. -/
lemma classify_of_accept {rule : Classifier} (hrule : rule ∈ specific)
    (h : rule.accept text = some token) : Token.classify text = token :=
  Token.classify_eq_iff.2 (denotes_of_accept hrule h)

/-- A text that no specific rule accepts is unknown. -/
lemma classify_of_forall_accept_eq_none (h : ∀ rule ∈ specific, rule.accept text = none) :
    Token.classify text = .unknown text := by
  obtain ⟨hnumber, hoperator, hword⟩ : number.accept text = none ∧
      operator.accept text = none ∧ word.accept text = none := by
    simpa [specific] using h
  rw [Token.classify_eq, hnumber, hoperator, hword]
  rfl

/-! ## No competition -/

/-- Of two of the three classifiers at most one accepts a text. -/
lemma pairwise_accept_eq_none (text : String) :
    specific.Pairwise fun first second => first.accept text = none ∨ second.accept text = none := by
  have hkinds : specific.Pairwise fun first second => first.kind ≠ second.kind := by
    simp [specific, number, operator, word]
  refine hkinds.imp_of_mem fun {first second} hfirst hsecond hkind => ?_
  by_contra hboth
  rw [not_or] at hboth
  obtain ⟨a, ha⟩ := Option.ne_none_iff_exists'.1 hboth.1
  obtain ⟨b, hb⟩ := Option.ne_none_iff_exists'.1 hboth.2
  -- both have made the one token of the text, and each has given it its own kind
  obtain rfl : a = b := by
    rw [← classify_of_accept hfirst ha, classify_of_accept hsecond hb]
  apply hkind
  rw [← kind_of_accept_eq_some (mem_all_of_mem_specific hfirst) ha,
    kind_of_accept_eq_some (mem_all_of_mem_specific hsecond) hb]

/-- With the last classifier behind them, classifiers yield what the first of them yields that
accepts, and an unknown word when none does. -/
lemma classifyWith_append_unknown (rules : List Classifier) (text : String) :
    classifyWith (rules ++ [unknown]) text =
      (rules.findSome? fun rule => rule.accept text).getD (.unknown text) := by
  rw [classifyWith, List.findSome?_append]
  cases rules.findSome? fun rule => rule.accept text with
  | none => rfl
  | some found => rfl

/-- The three classifiers can be asked in any order. -/
lemma classifyWith_of_perm {rules : List Classifier} (h : rules.Perm specific) (text : String) :
    classifyWith (rules ++ [unknown]) text = Token.classify text := by
  rw [classifyWith_append_unknown]
  cases hfind : rules.findSome? fun rule => rule.accept text with
  | none =>
    rw [List.findSome?_eq_none_iff] at hfind
    exact (classify_of_forall_accept_eq_none fun rule hrule => hfind rule (h.mem_iff.2 hrule)).symm
  | some found =>
    obtain ⟨rule, hrule, haccept⟩ := List.exists_of_findSome?_eq_some hfind
    exact (classify_of_accept (h.mem_iff.1 hrule) haccept).symm

/-- The classifiers accept exactly their languages and never compete.  For any text, the number
classifier accepts it exactly when it is a numeral, and yields the integer that the numeral writes;
the operator classifier accepts exactly the five symbols, and the word classifier exactly what is
lowered to one of the eleven names, each with the opcode that is spelled so.  At most one of the
three accepts.  What it yields has its kind and is the token of the text; when none accepts, the
token is unknown and keeps the text.  Hence any order of the classifiers in which the one for
unknown words stays last gives the same token. -/
theorem rules_never_compete (text : String) :
    (∀ token, number.accept text = some token ↔
      ∃ numeral : Numeral, numeral.text = text ∧ token = .number numeral.value) ∧
    (∀ token, operator.accept text = some token ↔
      ∃ op, ⟨text, op⟩ ∈ Spelling.symbols ∧ token = .operator op) ∧
    (operator.accept text ≠ none ↔ text ∈ ["+", "-", "*", "/", "."]) ∧
    (∀ token, word.accept text = some token ↔
      ∃ op, ⟨text.map Char.toLower, op⟩ ∈ Spelling.names ∧ token = .word op) ∧
    (word.accept text ≠ none ↔
      text.map Char.toLower ∈ [".s", "dup", "drop", "swap", "over", "rot", "negate", "abs", "depth",
        "clear", "words"]) ∧
    [number, operator, word].Pairwise
      (fun first second => first.accept text = none ∨ second.accept text = none) ∧
    (∀ rule ∈ [number, operator, word], ∀ token, rule.accept text = some token →
      token.kind = rule.kind ∧ Token.classify text = token) ∧
    ((∀ rule ∈ [number, operator, word], rule.accept text = none) →
      Token.classify text = .unknown text) ∧
    ∀ rules : List Classifier, (rules ++ [unknown]).Perm all →
      classifyWith (rules ++ [unknown]) text = Token.classify text := by
  have hsymbol : operator.accept text ≠ none ↔ text ∈ Spelling.symbols.map Spelling.text := by
    rw [← Spelling.opcode?_ne_none_iff]
    simp [operator]
  have hname : word.accept text ≠ none ↔
      text.map Char.toLower ∈ Spelling.names.map Spelling.text := by
    rw [← Spelling.opcode?_ne_none_iff]
    simp [word]
  refine ⟨fun _ => number_accept_eq_some_iff, fun _ => operator_accept_eq_some_iff, hsymbol,
    fun _ => word_accept_eq_some_iff, hname, pairwise_accept_eq_none text, ?_,
    classify_of_forall_accept_eq_none, ?_⟩
  · intro rule hrule token haccept
    refine ⟨?_, classify_of_accept hrule haccept⟩
    exact kind_of_accept_eq_some (mem_all_of_mem_specific hrule) haccept
  · intro rules hrules
    rw [all_eq_specific_append] at hrules
    exact classifyWith_of_perm ((List.perm_append_right_iff [unknown]).1 hrules) text

/-- With the classifier for names in front, a lone sign is a symbol all the same and a signed digit
a number. -/
example : classifyWith [word, operator, number, unknown] "-" = .operator .minus ∧
    classifyWith [word, operator, number, unknown] "-5" = .number (-5) := by cbv

end Classifier

end StackLang
