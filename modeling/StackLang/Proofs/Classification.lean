import Mathlib
import StackLang.Proofs.Expression

/-!
# What a word stands for

The rules by which a word becomes a token, written down without the order in which the classifiers
are asked: `Token.Denotes text token`.  A numeral stands for its value, a symbol for its opcode, a
name in any letter case for its opcode, and a text that is none of these stands for nothing known.
Every text stands for exactly one token, and classification finds it (`Token.classify_eq_iff`).

Facts about classification are read off the rules, so the classifiers are opened in this file and
in the one on letter case only.
-/

namespace StackLang

open Text

/-! ## Numerals -/

namespace Numeral

/-- A digit is the character of a number below ten. -/
lemma exists_digitChar_eq {c : Char} (hc : c.isDigit = true) :
    ∃ digit : Fin 10, digit.val.digitChar = c := by
  have hbounds := toNat_of_isDigit hc
  have hlt : c.toNat - 48 < 10 := by omega
  refine ⟨⟨c.toNat - 48, hlt⟩, ?_⟩
  have hnat : (c.toNat - 48).digitChar.toNat = c.toNat := by
    rw [Nat.toNat_digitChar_of_lt_ten hlt]
    omega
  exact Char.toNat_inj.1 hnat

/-- A text of digits is written by a list of digits. -/
lemma exists_map_digitChar_eq {cs : List Char} (hcs : ∀ c ∈ cs, c.isDigit = true) :
    ∃ digits : List (Fin 10), (digits.map fun digit => digit.val.digitChar) = cs := by
  induction cs with
  | nil => exact ⟨[], rfl⟩
  | cons c cs ih =>
    obtain ⟨hc, htail⟩ := List.forall_mem_cons.1 hcs
    obtain ⟨digit, rfl⟩ := exists_digitChar_eq hc
    obtain ⟨digits, rfl⟩ := ih htail
    exact ⟨digit :: digits, rfl⟩

/-- A text that reads as a number behind a sign is a numeral with that sign. -/
lemma exists_digitCharacters_eq {cs : List Char} (h : Decimal.readNat? cs ≠ none)
    (sign? : Option Sign) :
    ∃ numeral : Numeral, numeral.sign? = sign? ∧ numeral.digitCharacters = cs := by
  unfold Decimal.readNat? at h
  split at h
  · next hdigits =>
    obtain ⟨hne, hall⟩ := hdigits
    obtain ⟨digits, rfl⟩ := exists_map_digitChar_eq (List.all_eq_true.1 hall)
    exact ⟨⟨sign?, digits, fun hnil => hne (by rw [hnil]; rfl)⟩, rfl, rfl⟩
  · exact absurd rfl h

/-- A text that reads as an integer is a numeral. -/
lemma exists_characters_eq {cs : List Char} (h : Decimal.readInt? cs ≠ none) :
    ∃ numeral : Numeral, numeral.characters = cs := by
  unfold Decimal.readInt? at h
  split at h
  · next digits =>
    have hread : Decimal.readNat? digits ≠ none := fun hnone => h (by rw [hnone]; rfl)
    obtain ⟨numeral, hsign, hdigits⟩ := exists_digitCharacters_eq hread (some .minus)
    exact ⟨numeral, by rw [characters, hsign, hdigits]⟩
  · next digits =>
    have hread : Decimal.readNat? digits ≠ none := fun hnone => h (by rw [hnone]; rfl)
    obtain ⟨numeral, hsign, hdigits⟩ := exists_digitCharacters_eq hread (some .plus)
    exact ⟨numeral, by rw [characters, hsign, hdigits]⟩
  · have hread : Decimal.readNat? cs ≠ none := fun hnone => h (by rw [hnone]; rfl)
    obtain ⟨numeral, hsign, hdigits⟩ := exists_digitCharacters_eq hread none
    exact ⟨numeral, by rw [characters, hsign, hdigits]⟩

/-- A text is a numeral exactly when it reads as an integer. -/
lemma readInt?_eq_none_iff {text : String} :
    Decimal.readInt? text.toList = none ↔ ∀ numeral : Numeral, numeral.text ≠ text := by
  constructor
  · rintro hnone numeral rfl
    rw [Numeral.text, String.toList_ofList, readInt?_characters] at hnone
    cases hnone
  · intro hnever
    by_contra hsome
    obtain ⟨numeral, hnumeral⟩ := exists_characters_eq hsome
    exact hnever numeral (by rw [Numeral.text, hnumeral, String.ofList_toList])

end Numeral

/-! ## Spellings -/

namespace Spelling

/-- A text has no opcode when it is not in the table. -/
lemma opcode?_eq_none_iff {table : List Spelling} {text : String} :
    opcode? table text = none ↔ ∀ spelling ∈ table, spelling.text ≠ text := by
  simp [opcode?]

/-- A text spells at most one opcode. -/
lemma eq_of_mem_all {a b : Spelling} (ha : a ∈ all) (hb : b ∈ all) (h : a.text = b.text) :
    a = b :=
  List.inj_on_of_nodup_map nodup_all.1 ha hb h

/-- No spelling holds a capital letter. -/
lemma map_toLower_text {spelling : Spelling} (h : spelling ∈ all) :
    spelling.text.map Char.toLower = spelling.text := by
  have hall : all.map (fun spelling => spelling.text.map Char.toLower) = all.map Spelling.text := by
    cbv
  exact List.map_inj_left.1 hall spelling h

/-- A symbol holds no letter at all, so nothing but itself is lowered to it. -/
lemma map_toLower_eq_symbol_iff {spelling : Spelling} (h : spelling ∈ symbols) {text : String} :
    text.map Char.toLower = spelling.text ↔ text = spelling.text := by
  have hletters : symbols.all (fun spelling => spelling.text.toList.all fun c => !c.isAlpha) := by
    decide
  refine string_map_toLower_eq_iff fun c hc => ?_
  simpa using List.all_eq_true.1 (List.all_eq_true.1 hletters spelling h) c hc

end Spelling

/-! ## The rules -/

namespace Token

/-- What a text stands for. -/
inductive Denotes : String → Token → Prop
  | number (numeral : Numeral) : Denotes numeral.text (.number numeral.value)
  | operator {spelling : Spelling} (hspelling : spelling ∈ Spelling.symbols) :
      Denotes spelling.text (.operator spelling.opcode)
  | word {text : String} {spelling : Spelling} (hspelling : spelling ∈ Spelling.names)
      (htext : text.map Char.toLower = spelling.text) : Denotes text (.word spelling.opcode)
  | unknown {text : String} (hnumeral : ∀ numeral : Numeral, numeral.text ≠ text)
      (hspelling : ∀ spelling ∈ Spelling.all, spelling.text ≠ text.map Char.toLower) :
      Denotes text (.unknown text)

/-- Every text stands for a token. -/
lemma exists_denotes (text : String) : ∃ token, Denotes text token := by
  by_cases hnumeral : ∃ numeral : Numeral, numeral.text = text
  · obtain ⟨numeral, rfl⟩ := hnumeral
    exact ⟨_, .number numeral⟩
  by_cases hspelling : ∃ spelling ∈ Spelling.all, spelling.text = text.map Char.toLower
  · obtain ⟨spelling, hmem, htext⟩ := hspelling
    rcases List.mem_append.1 hmem with hsymbol | hname
    · obtain rfl := (Spelling.map_toLower_eq_symbol_iff hsymbol).1 htext.symm
      exact ⟨_, .operator hsymbol⟩
    · exact ⟨_, .word hname htext.symm⟩
  · exact ⟨_, .unknown (fun numeral h => hnumeral ⟨numeral, h⟩)
      fun spelling hmem h => hspelling ⟨spelling, hmem, h⟩⟩

/-- The symbols are classified as their opcodes. -/
lemma classify_symbol {spelling : Spelling} (h : spelling ∈ Spelling.symbols) :
    classify spelling.text = .operator spelling.opcode := by
  have hall : Spelling.symbols.map (fun spelling => classify spelling.text) =
      Spelling.symbols.map (fun spelling => Token.operator spelling.opcode) := by decide
  exact List.map_inj_left.1 hall spelling h

/-- The names are classified as their opcodes. -/
lemma classify_name {spelling : Spelling} (h : spelling ∈ Spelling.names) :
    classify spelling.text = .word spelling.opcode := by
  have hall : Spelling.names.map (fun spelling => classify spelling.text) =
      Spelling.names.map (fun spelling => Token.word spelling.opcode) := by cbv
  exact List.map_inj_left.1 hall spelling h

/-- The operator of a symbol is written as that symbol. -/
lemma text_operator_of_mem {spelling : Spelling} (h : spelling ∈ Spelling.symbols) :
    (Token.operator spelling.opcode).text = spelling.text := by
  have hall : Spelling.symbols.map (fun spelling => (Token.operator spelling.opcode).text) =
      Spelling.symbols.map Spelling.text := by decide
  exact List.map_inj_left.1 hall spelling h

/-- The word of a name is written as that name. -/
lemma text_word_of_mem {spelling : Spelling} (h : spelling ∈ Spelling.names) :
    (Token.word spelling.opcode).text = spelling.text := by
  have hall : Spelling.names.map (fun spelling => (Token.word spelling.opcode).text) =
      Spelling.names.map Spelling.text := by decide
  exact List.map_inj_left.1 hall spelling h

/-- Classification follows the rules. -/
lemma Denotes.classify_eq {text : String} {token : Token} (h : Denotes text token) :
    classify text = token := by
  cases h with
  | number numeral =>
    have hread : Decimal.readInt? numeral.text.toList = some numeral.value := by
      rw [Numeral.text, String.toList_ofList, numeral.readInt?_characters]
    rw [Token.classify_eq, Classifier.number]
    simp only [hread, Option.map_some]
    rfl
  | operator hspelling => exact classify_symbol hspelling
  | word hspelling htext =>
    refine classify_of_map_toLower ?_ Kind.noConfusion
    rw [htext, classify_name hspelling]
  | unknown hnumeral hspelling =>
    have hnumber : Classifier.number.accept text = none := by
      simp [Classifier.number, Numeral.readInt?_eq_none_iff.2 hnumeral]
    have hsymbol : Spelling.opcode? Spelling.symbols text = none := by
      refine Spelling.opcode?_eq_none_iff.2 fun spelling hmem htext => ?_
      have hall : spelling ∈ Spelling.all := List.mem_append_left _ hmem
      exact hspelling spelling hall (by rw [← htext, Spelling.map_toLower_text hall])
    have hname : Spelling.opcode? Spelling.names (text.map Char.toLower) = none :=
      Spelling.opcode?_eq_none_iff.2 fun spelling hmem =>
        hspelling spelling (List.mem_append_right _ hmem)
    rw [Token.classify_eq, hnumber]
    simp [Classifier.operator, Classifier.word, hsymbol, hname]

/-- Classification is the one function that follows the rules. -/
theorem classify_eq_iff {text : String} {token : Token} :
    classify text = token ↔ Denotes text token := by
  obtain ⟨found, hfound⟩ := exists_denotes text
  constructor
  · rintro rfl
    rwa [hfound.classify_eq]
  · exact Denotes.classify_eq

/-- A text that stands for an opcode is, apart from letter case, a spelling of that opcode, and it
is no numeral. -/
lemma Denotes.spelled {text : String} {token : Token} (h : Denotes text token) {op : Opcode}
    (hop : token.opcode? = some op) :
    ⟨text.map Char.toLower, op⟩ ∈ Spelling.all ∧ ∀ numeral : Numeral, numeral.text ≠ text := by
  constructor
  · cases h with
    | number numeral => cases hop
    | @operator spelling hspelling =>
      have hall : spelling ∈ Spelling.all := List.mem_append_left _ hspelling
      obtain rfl : spelling.opcode = op := Option.some.inj hop
      rwa [Spelling.map_toLower_text hall]
    | @word _ spelling hspelling htext =>
      obtain rfl : spelling.opcode = op := Option.some.inj hop
      rw [htext]
      exact List.mem_append_right _ hspelling
    | unknown hnumeral hspelling => cases hop
  · rintro numeral rfl
    have hnumber := (Denotes.number numeral).classify_eq
    rw [h.classify_eq] at hnumber
    rw [hnumber] at hop
    cases hop

end Token

end StackLang
