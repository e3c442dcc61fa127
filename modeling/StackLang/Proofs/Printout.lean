import Mathlib
import StackLang.Proofs.LetterCase
import StackLang.Proofs.StackEffects

/-!
# What words print

The words of a line print into one text, one behind the other.  Whatever they are, this text holds
only printable ASCII characters, and it is empty or ends with a space (`Text.IsPrintout`).  So
whatever is written behind it stands by itself.

Texts with this property can be put one behind the other, hence it is enough to look at the three
words that print anything.
-/

namespace StackLang

namespace Text

/-! ## Printable texts -/

/-- All characters of the text are printable ASCII characters, the space among them. -/
def IsPrintable (text : String) : Prop := ∀ c ∈ text.toList, 0x20 ≤ c.toNat ∧ c.toNat ≤ 0x7E

instance (text : String) : Decidable (IsPrintable text) :=
  decidable_of_iff ((text.toList.all fun c => 0x20 ≤ c.toNat && c.toNat ≤ 0x7E) = true)
    (by simp [IsPrintable])

/-- A joined text is printable when both parts are. -/
lemma isPrintable_append {a b : String} :
    IsPrintable (a ++ b) ↔ IsPrintable a ∧ IsPrintable b := by
  unfold IsPrintable
  rw [String.toList_append]
  exact List.forall_mem_append

/-- Printable texts with a printable text between any two of them are printable. -/
lemma isPrintable_intercalate {separator : String} (hseparator : IsPrintable separator)
    {texts : List String} (h : ∀ text ∈ texts, IsPrintable text) :
    IsPrintable (String.intercalate separator texts) := by
  induction texts with
  | nil =>
    rw [String.intercalate_nil]
    decide
  | cons first rest ih =>
    obtain ⟨hfirst, hrest⟩ := List.forall_mem_cons.1 h
    rcases rest with _ | ⟨second, rest⟩
    · rwa [String.intercalate_singleton]
    · rw [String.intercalate_cons_cons, isPrintable_append, isPrintable_append]
      exact ⟨⟨hfirst, hseparator⟩, ih hrest⟩

/-! ## Printouts -/

/-- The text is printable, and it is empty or ends with a space. -/
structure IsPrintout (text : String) : Prop where
  isPrintable : IsPrintable text
  ends_space : text = "" ∨ text.toList.getLast? = some ' '

/-- Nothing is a printout. -/
lemma isPrintout_empty : IsPrintout "" := ⟨by decide, Or.inl rfl⟩

/-- A space makes a printout of a printable text. -/
lemma isPrintout_append_space {text : String} (h : IsPrintable text) :
    IsPrintout (text ++ " ") where
  isPrintable := isPrintable_append.2 ⟨h, by decide⟩
  ends_space := Or.inr (by simp)

/-- A printout behind a printout is a printout. -/
lemma IsPrintout.append {a b : String} (ha : IsPrintout a) (hb : IsPrintout b) :
    IsPrintout (a ++ b) where
  isPrintable := isPrintable_append.2 ⟨ha.isPrintable, hb.isPrintable⟩
  ends_space := by
    rcases hb.ends_space with rfl | hspace
    · rw [String.append_empty]
      exact ha.ends_space
    · right
      rw [String.toList_append, List.getLast?_append, hspace]
      rfl

/-- Printouts behind each other are a printout. -/
lemma isPrintout_join {texts : List String} (h : ∀ text ∈ texts, IsPrintout text) :
    IsPrintout (String.join texts) := by
  induction texts with
  | nil => exact isPrintout_empty
  | cons first rest ih =>
    obtain ⟨hfirst, hrest⟩ := List.forall_mem_cons.1 h
    rw [String.join_cons]
    exact hfirst.append (ih hrest)

end Text

open Text

/-! ## Values, stacks and spellings -/

namespace Decimal

/-- Natural numbers are printable. -/
lemma isPrintable_repr (n : Nat) : IsPrintable n.repr := by
  intro c hc
  rw [Nat.toList_repr] at hc
  have hrange := toNat_of_isDigit (Nat.isDigit_of_mem_toDigits (by decide) (by decide) hc)
  omega

/-- Integers are printable. -/
lemma isPrintable_write (n : Int) : IsPrintable (write n) := by
  unfold write
  split
  · exact isPrintable_repr _
  · exact isPrintable_append.2 ⟨by decide, isPrintable_repr _⟩

end Decimal

/-- However large its numerator and denominator are, a value is written in printable characters. -/
lemma Value.isPrintable_text (v : Value) : IsPrintable v.text := by
  unfold text
  split
  · exact Decimal.isPrintable_write v.num
  · rw [isPrintable_append, isPrintable_append]
    exact ⟨⟨Decimal.isPrintable_write v.num, by decide⟩, Decimal.isPrintable_repr v.den⟩

/-- A printed stack is a printout. -/
lemma Stack.isPrintout_render (s : Stack Value) : IsPrintout (s.render Value.text) := by
  have hsize : IsPrintout ("<" ++ s.size.repr ++ "> ") := by
    have hbracket : "> " = ">" ++ " " := by decide
    rw [hbracket, ← String.append_assoc]
    apply isPrintout_append_space
    refine isPrintable_append.2 ⟨isPrintable_append.2 ⟨by decide, ?_⟩, by decide⟩
    exact Decimal.isPrintable_repr s.size
  refine hsize.append (isPrintout_join ?_)
  rintro text htext
  obtain ⟨v, -, rfl⟩ := List.mem_map.1 htext
  exact isPrintout_append_space (Value.isPrintable_text v)

/-- Listed words are printable. -/
lemma Vocabulary.isPrintable_of_mem_spellings {v : Vocabulary} {text : String}
    (h : text ∈ v.spellings) : IsPrintable text := by
  have hall : Spelling.all.all fun spelling => decide (IsPrintable spelling.text) := by decide
  obtain ⟨spelling, hspelling, -, rfl⟩ := mem_spellings.1 h
  exact of_decide_eq_true (List.all_eq_true.1 hall spelling hspelling)

/-! ## Words and runs -/

/-- A word that performs prints a printout. -/
lemma Opcode.Performs.isPrintout {known : List String} {op : Opcode} {before after : List ℚ}
    {text : String} (h : op.Performs known before after text)
    (hknown : ∀ word ∈ known, IsPrintable word) : IsPrintout text := by
  cases h with
  | dot lower a => exact isPrintout_append_space (Value.isPrintable_text a)
  | dotS all => exact Stack.isPrintout_render _
  | words all => exact isPrintout_append_space (isPrintable_intercalate (by decide) hknown)
  | _ => exact isPrintout_empty

namespace Vocabulary

/-- Whatever an opcode means in a vocabulary, it prints a printout. -/
lemma isPrintout_execute (v : Vocabulary) (op : Opcode) (s : Stack Value) :
    IsPrintout (v.execute op s).printed := by
  unfold execute
  split
  · next meaning hmeaning =>
    rcases meaning.performs_or_fails v.spellings s with
      ⟨after, text, hperforms⟩ | hlt | ⟨rfl, lower, b, hs⟩
    · rw [hperforms.effect_eq]
      exact hperforms.isPrintout fun word => isPrintable_of_mem_spellings
    · rw [Opcode.effect_of_size_lt hlt]
      exact isPrintout_empty
    · rw [Opcode.effect_slash_of_zero hs]
      exact isPrintout_empty
  · exact isPrintout_empty

/-- Every token prints a printout. -/
lemma isPrintout_dispatch (v : Vocabulary) (token : Token) (s : Stack Value) :
    IsPrintout (v.dispatch token s).printed := by
  cases token with
  | number value => exact isPrintout_empty
  | operator op => exact v.isPrintout_execute op s
  | word op => exact v.isPrintout_execute op s
  | unknown text => exact isPrintout_empty

/-- A run prints a printout, also when it stops. -/
lemma isPrintout_run {α : Type*} (v : Vocabulary) (tokenOf : α → Token) (items : List α)
    (s : Stack Value) : IsPrintout (v.run tokenOf items s).printed := by
  induction items generalizing s with
  | nil => exact isPrintout_empty
  | cons item rest ih =>
    have hitem := v.isPrintout_dispatch (tokenOf item) s
    cases herror : (v.dispatch (tokenOf item) s).error? with
    | some d =>
      rw [run_cons_of_error herror]
      exact hitem
    | none =>
      rw [run_cons_of_none herror]
      exact hitem.append (ih _)

end Vocabulary

end StackLang
