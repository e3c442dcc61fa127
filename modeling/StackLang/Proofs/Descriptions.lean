import Mathlib
import StackLang.Diagnostic

/-!
# Reading descriptions

The description of a diagnostic determines it, although the word is written into it as it is and may
look like any of the other parts.  What a description gives is collected in an `Account`, in which
place and word may each be left out.  Accounts with the same text are equal (`Account.text_inj`),
because each part shows where it ends: the messages begin with different letters, a numeral ends in
front of the first character that is no digit, and the word, which comes last, ends in front of the
closing brace.  Whether a place or a word follows is seen from the characters in front of it.
-/

namespace StackLang

/-! ## Parts that show where they end -/

/-- The first letter of a message tells the fault. -/
lemma Fault.message_append_inj {f g : Fault} {s t : String} :
    f.message ++ s = g.message ++ t ↔ f = g ∧ s = t := by
  constructor
  · intro h
    have hletter := congrArg (fun text => text.toList.head?) h
    have hfault : f = g := by
      cases f <;> cases g <;> simp [message] at hletter ⊢
    subst hfault
    exact ⟨rfl, (String.append_right_inj _).1 h⟩
  · rintro ⟨rfl, rfl⟩
    rfl

/-- The digits of a numeral end in front of the first character that is no digit. -/
lemma Decimal.takeWhile_isDigit_repr_append {c : Char} (hc : c.isDigit = false) (n : Nat)
    (rest : List Char) : (n.repr.toList ++ c :: rest).takeWhile Char.isDigit = n.repr.toList := by
  have hdigits : ∀ d ∈ n.repr.toList, d.isDigit = true := by
    rw [Nat.toList_repr]
    exact fun d => Nat.isDigit_of_mem_toDigits (by decide) (by decide)
  rw [List.takeWhile_append_of_pos hdigits, List.takeWhile_cons_of_neg (by simp [hc]),
    List.append_nil]

/-- A number ends where the first character stands that is no digit, so it can be told from what
stands behind it. -/
lemma Decimal.repr_append_cons_inj {m n : Nat} {c : Char} (hc : c.isDigit = false)
    {s t : List Char} : m.repr.toList ++ c :: s = n.repr.toList ++ c :: t ↔ m = n ∧ s = t := by
  constructor
  · intro h
    have hdigits := congrArg (List.takeWhile Char.isDigit) h
    rw [takeWhile_isDigit_repr_append hc, takeWhile_isDigit_repr_append hc, String.toList_inj,
      Nat.repr_inj] at hdigits
    subst hdigits
    exact ⟨rfl, (List.cons.inj (List.append_cancel_left h)).2⟩
  · rintro ⟨rfl, rfl⟩
    rfl

namespace Diagnostic

/-! ## Accounts -/

/-- What a description gives: a fault, and a place and a word unless they are left out. -/
structure Account where
  fault : Fault
  place? : Option Column
  word? : Option String
  deriving DecidableEq

namespace Account

/-- A place as it stands in a description. -/
def placePart : Option Column → String
  | none => ""
  | some column => " (" ++ column.start.repr ++ ".." ++ column.stop.repr ++ ")"

/-- A word as it stands in a description. -/
def wordPart : Option String → String
  | none => ""
  | some word => "; " ++ word

/-- The description that gives what the account holds. -/
def text (account : Account) : String :=
  "Error \x7b " ++ account.fault.message ++ placePart account.place? ++ wordPart account.word? ++
    " \x7d"

/-- A word is announced by a semicolon, and it ends in front of the brace. -/
lemma wordPart_append_inj {w w' : Option String} :
    wordPart w ++ " \x7d" = wordPart w' ++ " \x7d" ↔ w = w' := by
  rw [String.append_left_inj]
  cases w <;> cases w' <;> simp [wordPart]

/-- What stands behind a missing place does not look like a place. -/
lemma placePart_some_append_ne (column : Column) (w : Option String) (rest : String) :
    placePart (some column) ++ rest ≠ wordPart w ++ " \x7d" := by
  intro h
  -- a place begins with a space and a bracket, a word with a semicolon
  have hstart := congrArg (fun text => text.toList.take 2) h
  cases w <;> simp [placePart, wordPart] at hstart

/-- A place is announced by a bracket, and its two numerals end where their digits end. -/
lemma placePart_some_append_inj {column column' : Column} {s t : String} :
    placePart (some column) ++ s = placePart (some column') ++ t ↔ column = column' ∧ s = t := by
  constructor
  · intro h
    have hnumerals : column.start.repr.toList ++
          '.' :: '.' :: (column.stop.repr.toList ++ ')' :: s.toList) =
        column'.start.repr.toList ++
          '.' :: '.' :: (column'.stop.repr.toList ++ ')' :: t.toList) := by
      simpa [placePart, ← String.toList_inj] using h
    obtain ⟨hstart, hrest⟩ := (Decimal.repr_append_cons_inj (by decide)).1 hnumerals
    obtain ⟨hstop, hst⟩ := (Decimal.repr_append_cons_inj (by decide)).1 (List.cons.inj hrest).2
    exact ⟨congrArg₂ Column.mk hstart hstop, String.toList_inj.1 hst⟩
  · rintro ⟨rfl, rfl⟩
    rfl

/-- A text gives at most one account. -/
lemma text_inj {a b : Account} : a.text = b.text ↔ a = b := by
  refine ⟨fun h => ?_, congrArg text⟩
  obtain ⟨f, p, w⟩ := a
  obtain ⟨g, q, v⟩ := b
  simp only [text, String.append_assoc, String.append_right_inj, Fault.message_append_inj] at h
  obtain ⟨rfl, hparts⟩ := h
  -- either both texts have a place behind the message or none has
  cases p with
  | none =>
    cases q with
    | none =>
      have hword : wordPart w ++ " \x7d" = wordPart v ++ " \x7d" := by
        simpa only [placePart, String.empty_append] using hparts
      rw [wordPart_append_inj.1 hword]
    | some column =>
      rw [placePart, String.empty_append] at hparts
      exact absurd hparts.symm (placePart_some_append_ne column w _)
  | some column =>
    cases q with
    | none =>
      rw [placePart, String.empty_append] at hparts
      exact absurd hparts (placePart_some_append_ne column v _)
    | some column' =>
      obtain ⟨rfl, hword⟩ := placePart_some_append_inj.1 hparts
      rw [wordPart_append_inj.1 hword]

end Account

/-- The text is the description of something with a place. -/
def GivesPlace (text : String) : Prop :=
  ∃ account : Account, account.text = text ∧ account.place? ≠ none

/-- The text is the description of something with a word. -/
def GivesWord (text : String) : Prop :=
  ∃ account : Account, account.text = text ∧ account.word? ≠ none

/-! ## The account of a diagnostic -/

/-- A fault that is raised and then gets a place or not, and a word or not. -/
def build (fault : Fault) (column? : Option Column) (word? : Option String) : Diagnostic :=
  let placed := column?.elim (raise fault) (raise fault).inColumn
  word?.elim placed placed.withWord

/-- The place of the failing word, when it is known. -/
def place? (d : Diagnostic) : Option Column := if d.isLocated then some d.column else none

/-- What the description of a diagnostic gives. -/
def account (d : Diagnostic) : Account := ⟨d.fault, d.place?, d.word?⟩

/-- An error has a place when it is located. -/
lemma place?_ne_none_iff {d : Diagnostic} : d.place? ≠ none ↔ d.isLocated = true := by
  simp [place?]

/-- The place of an error, or the one that stands for none, is its column. -/
lemma getD_place? (d : Diagnostic) : d.place?.getD .nowhere = d.column := by
  by_cases h : d.isLocated = true
  · simp [place?, h]
  · have hnowhere : d.column = .nowhere := by simpa [isLocated] using h
    simp [place?, h, hnowhere]

/-- The word of an error, or the empty one, is its word. -/
lemma getD_word? (d : Diagnostic) : d.word?.getD "" = d.word := by
  by_cases h : d.word = ""
  · simp [word?, h]
  · simp [word?, h]

/-- An account holds all that the diagnostic says. -/
lemma account_inj {d e : Diagnostic} :
    d.account = e.account ↔ d.fault = e.fault ∧ d.column = e.column ∧ d.word = e.word := by
  constructor
  · intro h
    obtain ⟨hfault, hplace, hword⟩ := Account.mk.inj h
    refine ⟨hfault, ?_, ?_⟩
    · rw [← d.getD_place?, ← e.getD_place?, hplace]
    · rw [← d.getD_word?, ← e.getD_word?, hword]
  · rintro ⟨hfault, hcolumn, hword⟩
    have hsame : d = e := by
      cases d
      cases e
      simp_all
    rw [hsame]

/-- The description of an error is the text of its account. -/
lemma text_account (d : Diagnostic) : d.account.text = d.description := by
  have hplace : Account.placePart d.place? = d.placeText := by
    by_cases h : d.isLocated = true <;> simp [place?, placeText, Account.placePart, h]
  have hword : Account.wordPart d.word? = d.wordText := by
    by_cases h : d.word = "" <;> simp [word?, wordText, Account.wordPart, h]
  simp only [account, Account.text, description, message, hplace, hword]

/-- A description is the text of no other account than that of its diagnostic. -/
lemma text_eq_description_iff {account : Account} {d : Diagnostic} :
    account.text = d.description ↔ account = d.account := by
  rw [← text_account, Account.text_inj]

/-- The description of an error determines its fault, its column and its word. -/
lemma description_inj {d e : Diagnostic} :
    d.description = e.description ↔ d.fault = e.fault ∧ d.column = e.column ∧ d.word = e.word := by
  rw [← text_account, ← text_account, Account.text_inj, account_inj]

/-- A description gives a place exactly when the error is located. -/
lemma givesPlace_description_iff {d : Diagnostic} :
    GivesPlace d.description ↔ d.isLocated = true := by
  simp only [GivesPlace, text_eq_description_iff, exists_eq_left, account, place?_ne_none_iff]

/-- A description gives a word exactly when the error has one. -/
lemma givesWord_description_iff {d : Diagnostic} :
    GivesWord d.description ↔ d.word? ≠ none := by
  simp only [GivesWord, text_eq_description_iff, exists_eq_left, account]

/-- The description of a diagnostic loses nothing, whatever place and word it was given.  Two
descriptions are equal exactly when fault, column and word are.  A description gives a place exactly
when the column is not `0..0`, and a word exactly when there is one. -/
theorem description_loses_nothing (fault fault' : Fault) (column? column'? : Option Column)
    (word? word'? : Option String) :
    ((build fault column? word?).description = (build fault' column'? word'?).description ↔
      (build fault column? word?).fault = (build fault' column'? word'?).fault ∧
        (build fault column? word?).column = (build fault' column'? word'?).column ∧
        (build fault column? word?).word = (build fault' column'? word'?).word) ∧
      (GivesPlace (build fault column? word?).description ↔
        (build fault column? word?).isLocated = true) ∧
      ((build fault column? word?).isLocated = true ↔
        (build fault column? word?).column ≠ ⟨0, 0⟩) ∧
      (GivesWord (build fault column? word?).description ↔
        (build fault column? word?).word? ≠ none) :=
  ⟨description_inj, givesPlace_description_iff, isLocated_iff, givesWord_description_iff⟩

/-- A word that looks like a place and a closing brace is still only a word. -/
example :
    (build .undefinedWord none (some "a (1..2) \x7d")).description =
      Account.text ⟨.undefinedWord, none, some "a (1..2) \x7d"⟩ := by decide

end Diagnostic

end StackLang
