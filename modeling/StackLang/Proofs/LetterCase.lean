import Mathlib
import StackLang.Text.Blank
import StackLang.Token.Classifier

/-!
# Letter case

Lowering the letters of a word does not change what the word stands for.  Numbers and symbols hold
no letters, so nothing becomes one of them by being lowered, and names are lowered anyhow before
they are looked up.  Only the text kept by an unknown word tells the difference.
-/

namespace StackLang

namespace Text

/-! ## Lowering single characters -/

/-- Nothing but the character itself is lowered to a character that is no letter. -/
lemma toLower_eq_iff_of_not_isAlpha {c d : Char} (hd : d.isAlpha = false) :
    c.toLower = d ↔ c = d := by
  have hlowered : ∀ e : Char, e.isAlpha = false → e.toLower = e := by
    intro e he
    have hupper : ¬ e.isUpper = true := by
      intro h
      simp [Char.isAlpha, h] at he
    exact Char.toLower_eq_of_not_isUpper hupper
  constructor
  · intro h
    have hc : c.isAlpha = false := by
      rw [← Char.isAlpha_toLower_eq_isAlpha, h, hd]
    rw [← h, hlowered c hc]
  · rintro rfl
    exact hlowered c hd

/-- The code points of digits. -/
lemma toNat_of_isDigit {c : Char} (hc : c.isDigit = true) : 48 ≤ c.toNat ∧ c.toNat ≤ 57 := by
  simpa [Char.isDigit, UInt32.le_iff_toNat_le] using hc

/-- The code points of letters. -/
lemma toNat_of_isAlpha {c : Char} (hc : c.isAlpha = true) :
    65 ≤ c.toNat ∧ c.toNat ≤ 90 ∨ 97 ≤ c.toNat ∧ c.toNat ≤ 122 := by
  simpa [Char.isAlpha, Char.isUpper, Char.isLower, UInt32.le_iff_toNat_le] using hc

/-- A digit is no letter. -/
lemma isAlpha_eq_false_of_isDigit {c : Char} (hc : c.isDigit = true) : c.isAlpha = false := by
  rw [← Bool.not_eq_true]
  intro halpha
  have hdigit := toNat_of_isDigit hc
  have hletter := toNat_of_isAlpha halpha
  omega

/-- What does not tell letters apart does not see their case. -/
lemma apply_toLower {β : Type*} {f : Char → β}
    (hf : ∀ c d : Char, c.isAlpha = true → d.isAlpha = true → f c = f d) (c : Char) :
    f c.toLower = f c := by
  cases hc : c.isAlpha with
  | true => exact hf _ _ (by rw [Char.isAlpha_toLower_eq_isAlpha, hc]) hc
  | false => rw [(toLower_eq_iff_of_not_isAlpha hc).2 rfl]

/-- Only digits are lowered to digits. -/
lemma isDigit_toLower (c : Char) : c.toLower.isDigit = c.isDigit := by
  have hletter : ∀ c : Char, c.isAlpha = true → c.isDigit = false := by
    intro c hc
    rw [← Bool.not_eq_true]
    intro hdigit
    rw [isAlpha_eq_false_of_isDigit hdigit] at hc
    cases hc
  exact apply_toLower (fun c d hc hd => by rw [hletter c hc, hletter d hd]) c

/-- Only blanks are lowered to blanks. -/
lemma isBlank_toLower (c : Char) : isBlank c.toLower = isBlank c := by
  have hletter : ∀ c : Char, c.isAlpha = true → isBlank c = false := by
    intro c hc
    have hrange := toNat_of_isAlpha hc
    exact isBlank_eq_false_of_visible (by omega) (by omega)
  exact apply_toLower (fun c d hc hd => by rw [hletter c hc, hletter d hd]) c

/-- A letter has one byte in either case. -/
lemma utf8Size_toLower (c : Char) : c.toLower.utf8Size = c.utf8Size := by
  have hletter : ∀ c : Char, c.isAlpha = true → c.utf8Size = 1 := by
    intro c hc
    have hrange := toNat_of_isAlpha hc
    have hle : c.toNat ≤ 127 := by omega
    exact Char.utf8Size_eq_one_iff.2 (UInt32.le_iff_toNat_le.2 hle)
  exact apply_toLower (fun c d hc hd => by rw [hletter c hc, hletter d hd]) c

/-- Nothing but the text itself is lowered to a text without letters. -/
lemma map_toLower_eq_iff_of_not_isAlpha {cs ds : List Char}
    (hds : ∀ d ∈ ds, d.isAlpha = false) : cs.map Char.toLower = ds ↔ cs = ds := by
  induction cs generalizing ds with
  | nil => simp
  | cons c cs ih =>
    cases ds with
    | nil => simp
    | cons d ds =>
      obtain ⟨hd, htail⟩ := List.forall_mem_cons.1 hds
      rw [List.map_cons, List.cons.injEq, List.cons.injEq, toLower_eq_iff_of_not_isAlpha hd,
        ih htail]

/-- The same for strings. -/
lemma string_map_toLower_eq_iff {word text : String}
    (htext : ∀ c ∈ text.toList, c.isAlpha = false) :
    word.map Char.toLower = text ↔ word = text := by
  rw [← String.toList_inj, String.toList_map, map_toLower_eq_iff_of_not_isAlpha htext,
    String.toList_inj]

end Text

open Text

/-! ## Numerals -/

namespace Decimal

/-- A lowered text writes the same number in digits. -/
lemma readNat?_map_toLower (cs : List Char) : readNat? (cs.map Char.toLower) = readNat? cs := by
  have hall : (cs.map Char.toLower).all Char.isDigit = cs.all Char.isDigit := by
    simp [List.all_map, Function.comp_def, isDigit_toLower]
  have hne : cs.map Char.toLower ≠ [] ↔ cs ≠ [] := by simp
  simp only [readNat?, hall, hne]
  split
  · next h =>
    have hdigits : ∀ c ∈ cs, c.isAlpha = false := fun c hc =>
      isAlpha_eq_false_of_isDigit (List.all_eq_true.1 h.2 c hc)
    rw [(map_toLower_eq_iff_of_not_isAlpha hdigits).2 rfl]
  · rfl

/-- A lowered text writes the same integer. -/
lemma readInt?_map_toLower (cs : List Char) : readInt? (cs.map Char.toLower) = readInt? cs := by
  have hsign : ∀ sign : Char, sign.isAlpha = false → cs.head? ≠ some sign →
      (cs.map Char.toLower).head? ≠ some sign := by
    intro sign halpha hhead hlowered
    rw [List.head?_map, Option.map_eq_some_iff] at hlowered
    obtain ⟨c, hc, hlow⟩ := hlowered
    rw [toLower_eq_iff_of_not_isAlpha halpha] at hlow
    exact hhead (hlow ▸ hc)
  by_cases hminus : cs.head? = some '-'
  · obtain ⟨digits, rfl⟩ := List.head?_eq_some_iff.1 hminus
    have hlow : '-'.toLower = '-' := by decide
    rw [List.map_cons, hlow, readInt?_minus, readInt?_minus, readNat?_map_toLower]
  · by_cases hplus : cs.head? = some '+'
    · obtain ⟨digits, rfl⟩ := List.head?_eq_some_iff.1 hplus
      have hlow : '+'.toLower = '+' := by decide
      rw [List.map_cons, hlow, readInt?_plus, readInt?_plus, readNat?_map_toLower]
    · rw [readInt?_of_head_ne (hsign '-' (by decide) hminus) (hsign '+' (by decide) hplus),
        readInt?_of_head_ne hminus hplus, readNat?_map_toLower]

end Decimal

/-! ## Classification -/

namespace Classifier

/-- The number rule does not see letter case. -/
lemma number_accept_map_toLower (text : String) :
    number.accept (text.map Char.toLower) = number.accept text := by
  simp only [number, String.toList_map, Decimal.readInt?_map_toLower]

/-- The symbol rule does not see letter case, since no symbol holds a letter. -/
lemma operator_accept_map_toLower (text : String) :
    operator.accept (text.map Char.toLower) = operator.accept text := by
  have hsymbol : ∀ spelling ∈ Spelling.symbols,
      (spelling.text == text.map Char.toLower) = (spelling.text == text) := by
    intro spelling hspelling
    have hany : spelling.text.toList.any Char.isAlpha = false := by
      simp only [Spelling.symbols, List.mem_cons, List.not_mem_nil, or_false] at hspelling
      rcases hspelling with rfl | rfl | rfl | rfl | rfl
      all_goals decide
    have hletters : ∀ c ∈ spelling.text.toList, c.isAlpha = false := by
      simpa only [List.any_eq_false, Bool.not_eq_true] using hany
    rw [Bool.eq_iff_iff, beq_iff_eq, beq_iff_eq, eq_comm, string_map_toLower_eq_iff hletters,
      eq_comm]
  have hfind : Spelling.symbols.find? (fun spelling => spelling.text == text.map Char.toLower) =
      Spelling.symbols.find? (fun spelling => spelling.text == text) :=
    List.find?_congr hsymbol
  simp only [operator, Spelling.opcode?, hfind]

/-- The name rule lowers letters by itself. -/
lemma word_accept_map_toLower (text : String) :
    word.accept (text.map Char.toLower) = word.accept text := by
  have htwice : (text.map Char.toLower).map Char.toLower = text.map Char.toLower := by
    rw [← String.toList_inj]
    simp [String.toList_map, Function.comp_def]
  simp only [word, htwice]

end Classifier

namespace Token

/-- A word stands for the same when it is lowered, or it is unknown in either case. -/
lemma classify_map_toLower (text : String) :
    classify (text.map Char.toLower) = classify text ∨
      classify (text.map Char.toLower) = .unknown (text.map Char.toLower) ∧
        classify text = .unknown text := by
  rw [classify_eq, classify_eq, Classifier.number_accept_map_toLower,
    Classifier.operator_accept_map_toLower, Classifier.word_accept_map_toLower]
  cases Classifier.number.accept text <|> Classifier.operator.accept text <|>
      Classifier.word.accept text with
  | none => exact Or.inr ⟨rfl, rfl⟩
  | some found => exact Or.inl rfl

/-- A word that is not unknown when it is lowered stands for the same as when it is lowered. -/
theorem classify_of_map_toLower {text : String} {token : Token}
    (h : classify (text.map Char.toLower) = token) (hknown : token.kind ≠ .unknown) :
    classify text = token := by
  rcases classify_map_toLower text with hsame | ⟨hlowered, -⟩
  · rw [← hsame, h]
  · rw [← h, hlowered] at hknown
    exact absurd rfl hknown

end Token

end StackLang
