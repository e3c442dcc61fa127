import StackLang.Token.Basic

/-!
# Classifying words

A word becomes a token through the first of four classifiers, in ascending priority, that accepts
it.  The last one accepts everything, so every word becomes a token.
-/

namespace StackLang

/-- A rule that turns some words into tokens of one kind. -/
structure Classifier where
  /-- Rules with smaller numbers are asked first. -/
  priority : Nat
  /-- The kind of the tokens that the rule yields. -/
  kind : Token.Kind
  /-- The token of a word that the rule accepts. -/
  accept : String → Option Token

namespace Classifier

/-- Accepts integers in decimal, with at most one sign. -/
def number : Classifier where
  priority := 10
  kind := .number
  accept word := (Decimal.readInt? word.toList).map fun n => .number (Value.ofInt n)

/-- Accepts the symbols. -/
def operator : Classifier where
  priority := 20
  kind := .operator
  accept word := (Spelling.opcode? Spelling.symbols word).map .operator

/-- Accepts the names, written with capital or small letters. -/
def word : Classifier where
  priority := 30
  kind := .word
  accept word := (Spelling.opcode? Spelling.names (word.map Char.toLower)).map .word

/-- Accepts every word. -/
def unknown : Classifier where
  priority := 255
  kind := .unknown
  accept word := some (.unknown word)

/-- The classifiers in the order in which they are asked. -/
def all : List Classifier := [number, operator, word, unknown]

/-- The classifiers are listed in strictly ascending priority. -/
theorem pairwise_priority_all : all.Pairwise fun a b => a.priority < b.priority := by
  simp [all, number, operator, word, unknown]

/-- A classifier yields tokens of its own kind only. -/
theorem kind_of_accept_eq_some {c : Classifier} (hc : c ∈ all) {text : String} {token : Token}
    (h : c.accept text = some token) : token.kind = c.kind := by
  simp only [all, List.mem_cons, List.not_mem_nil, or_false] at hc
  rcases hc with rfl | rfl | rfl | rfl
  all_goals simp only [number, operator, word, unknown, Option.map_eq_some_iff,
    Option.some.injEq] at h ⊢
  · obtain ⟨_, _, rfl⟩ := h
    rfl
  · obtain ⟨_, _, rfl⟩ := h
    rfl
  · obtain ⟨_, _, rfl⟩ := h
    rfl
  · subst h
    rfl

/-- The token of a word by the first of the given rules that accepts it, and an unknown one when
none of them does. -/
def classifyWith (rules : List Classifier) (word : String) : Token :=
  (rules.findSome? fun rule => rule.accept word).getD (.unknown word)

end Classifier

/-- The token of a word. -/
def Token.classify (word : String) : Token := Classifier.classifyWith Classifier.all word

/-- Classification asks the number rule, then the symbol rule, then the name rule. -/
theorem Token.classify_eq (word : String) :
    Token.classify word =
      (Classifier.number.accept word <|> Classifier.operator.accept word <|>
        Classifier.word.accept word).getD (.unknown word) := by
  simp only [Token.classify, Classifier.classifyWith, Classifier.all, List.findSome?_cons,
    List.findSome?_nil]
  cases Classifier.number.accept word <;> cases Classifier.operator.accept word <;>
    cases Classifier.word.accept word <;> rfl

end StackLang
