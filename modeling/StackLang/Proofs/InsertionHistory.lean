import Mathlib
import StackLang.Proofs.CarryOver

/-!
# How a vocabulary was made

A vocabulary is made from the empty one or from the standard one by insertions, and an insertion may
replace an earlier one.  Of such a history only the last meaning of each opcode can be told from the
vocabulary (`History.meaning?_vocabulary`).  Its opcodes are listed in their own order, whatever the
order in which they are kept (`Vocabulary.mergeSort_eq_opcodes`), its spellings in the order of the
tables of spellings, and sessions with two such vocabularies go through the same calls alike.
-/

namespace StackLang

/-! ## The order of opcodes -/

namespace Opcode

/-- The place of an opcode in the order of their declarations. -/
def rank (op : Opcode) : Nat := op.ctorIdx

/-- Whether an opcode does not come behind another one. -/
def notBehind (op other : Opcode) : Bool := decide (op.rank ≤ other.rank)

/-- Opcodes of the same rank are the same. -/
lemma rank_inj {op other : Opcode} (h : op.rank = other.rank) : op = other := by
  rw [← Opcode.ofNat_ctorIdx op, ← Opcode.ofNat_ctorIdx other]
  exact congrArg Opcode.ofNat h

/-- All opcodes are listed by rank. -/
lemma pairwise_rank_all : all.Pairwise fun op next => op.rank < next.rank := by decide

end Opcode

namespace Vocabulary

variable {v w : Vocabulary}

/-- The opcodes of a vocabulary are listed by rank. -/
lemma pairwise_rank_opcodes (v : Vocabulary) :
    v.opcodes.Pairwise fun op next => op.rank < next.rank :=
  Opcode.pairwise_rank_all.filter _

/-- No opcode of a vocabulary is listed twice. -/
lemma nodup_opcodes (v : Vocabulary) : v.opcodes.Nodup :=
  Opcode.nodup_all.filter _

/-- Sorting the executable opcodes lists them in the same way, whatever order they are kept in. -/
lemma mergeSort_eq_opcodes {keys : List Opcode} (hnodup : keys.Nodup)
    (hkeys : ∀ op, op ∈ keys ↔ v.contains op = true) :
    keys.mergeSort Opcode.notBehind = v.opcodes := by
  have hperm : (keys.mergeSort Opcode.notBehind).Perm v.opcodes := by
    refine (List.mergeSort_perm _ _).trans ?_
    rw [List.perm_ext_iff_of_nodup hnodup v.nodup_opcodes]
    intro op
    rw [hkeys, mem_opcodes]
  have hsorted : (keys.mergeSort Opcode.notBehind).Pairwise fun op next =>
      Opcode.notBehind op next = true := by
    refine List.pairwise_mergeSort ?_ ?_ keys
    · intro op next last hnext hlast
      simp only [Opcode.notBehind, decide_eq_true_eq] at hnext hlast ⊢
      exact Nat.le_trans hnext hlast
    · intro op next
      simpa [Opcode.notBehind] using Nat.le_total op.rank next.rank
  have hlisted : v.opcodes.Pairwise fun op next => Opcode.notBehind op next = true :=
    v.pairwise_rank_opcodes.imp fun hlt => decide_eq_true (Nat.le_of_lt hlt)
  refine List.Perm.eq_of_pairwise ?_ hsorted hlisted hperm
  intro op next _ _ hle hge
  exact Opcode.rank_inj (Nat.le_antisymm (of_decide_eq_true hle) (of_decide_eq_true hge))

/-! ## Histories -/

/-- After insertions an opcode has the meaning of its last one, or the one that it had before. -/
lemma meaning?_insertAll (v : Vocabulary) (bindings : List (Opcode × Opcode)) (op : Opcode) :
    (v.insertAll bindings).meaning? op =
      ((bindings.filter fun binding => binding.1 = op).getLast?.map Prod.snd).or
        (v.meaning? op) := by
  induction bindings using List.reverseRecOn with
  | nil => rfl
  | append_singleton bindings binding ih =>
    have hlast : v.insertAll (bindings ++ [binding]) =
        (v.insertAll bindings).insert binding.1 binding.2 := by
      simp only [insertAll, List.foldl_append, List.foldl_cons, List.foldl_nil]
    rw [hlast, meaning?_insert, List.filter_append]
    by_cases hop : op = binding.1
    · simp [hop]
    · simp [hop, Ne.symm hop, ih]

/-- The same meanings are given to the same opcodes. -/
lemma contains_congr (h : ∀ op, v.meaning? op = w.meaning? op) : v.contains = w.contains := by
  funext op
  rw [contains, contains, h]

/-- Vocabularies with the same meanings have the same opcodes. -/
lemma opcodes_congr (h : ∀ op, v.meaning? op = w.meaning? op) : v.opcodes = w.opcodes := by
  rw [opcodes, opcodes, contains_congr h]

end Vocabulary

/-- How a vocabulary was made. -/
structure History where
  /-- Whether it was the standard vocabulary at first, and not the empty one. -/
  isStandard : Bool
  /-- The opcodes with the meanings that were inserted for them, from the first to the last one. -/
  inserted : List (Opcode × Opcode)

namespace History

/-- The vocabulary that was made. -/
def vocabulary (history : History) : Vocabulary :=
  (if history.isStandard then Vocabulary.standard else .empty).insertAll history.inserted

/-- The last meaning that an opcode was given.  An opcode for which nothing was inserted has its own
meaning if the vocabulary was standard at first, and none if it was empty. -/
def last? (history : History) (op : Opcode) : Option Opcode :=
  match (history.inserted.filter fun binding => binding.1 = op).getLast? with
  | some binding => some binding.2
  | none => if history.isStandard then some op else none

/-- A vocabulary tells of its history the last meaning of each opcode. -/
lemma meaning?_vocabulary (history : History) (op : Opcode) :
    history.vocabulary.meaning? op = history.last? op := by
  have hfirst : (if history.isStandard then Vocabulary.standard else .empty).meaning? op =
      if history.isStandard then some op else none := by
    split
    · exact Vocabulary.meaning?_standard op
    · exact Vocabulary.meaning?_empty op
  rw [vocabulary, Vocabulary.meaning?_insertAll, hfirst, last?]
  cases (history.inserted.filter fun binding => binding.1 = op).getLast? with
  | none => rfl
  | some binding => rfl

/-- An opcode can be executed when it was inserted at some time. -/
lemma contains_vocabulary (history : History) (op : Opcode) :
    history.vocabulary.contains op = (history.last? op).isSome := by
  rw [Vocabulary.contains, meaning?_vocabulary]

/-- The opcodes of a vocabulary are those that were given a meaning, each listed once and in their
own order; this is how sorting them lists them, in whatever order they are kept. -/
lemma opcodes_vocabulary (history : History) :
    history.vocabulary.opcodes.Pairwise (fun op next => op.rank < next.rank) ∧
      history.vocabulary.opcodes.Nodup ∧
      (∀ op, op ∈ history.vocabulary.opcodes ↔ (history.last? op).isSome = true) ∧
      ∀ keys : List Opcode, keys.Nodup → (∀ op, op ∈ keys ↔ (history.last? op).isSome = true) →
        keys.mergeSort Opcode.notBehind = history.vocabulary.opcodes := by
  refine ⟨Vocabulary.pairwise_rank_opcodes _, Vocabulary.nodup_opcodes _, ?_, ?_⟩
  · intro op
    rw [Vocabulary.mem_opcodes, contains_vocabulary]
  · intro keys hnodup hkeys
    refine Vocabulary.mergeSort_eq_opcodes hnodup fun op => ?_
    rw [hkeys, contains_vocabulary]

/-- The spellings of a vocabulary are those of the opcodes that were given a meaning, in the order
of the tables. -/
lemma spellings_vocabulary (history : History) :
    history.vocabulary.spellings =
      ((Spelling.symbols ++ Spelling.names).filter fun spelling =>
        (history.last? spelling.opcode).isSome).map Spelling.text := by
  simp only [Vocabulary.spellings, contains_vocabulary, Spelling.all]

/-- Sessions whose vocabularies were made by histories with the same last meanings, and which differ
in nothing else, are the same. -/
lemma same_sessions {first second : History} (h : ∀ op, first.last? op = second.last? op)
    (stack : Stack Value) (output : String) (lastError? : Option Diagnostic) :
    Session.Same ⟨first.vocabulary, stack, output, lastError?⟩
      ⟨second.vocabulary, stack, output, lastError?⟩ := by
  refine ⟨⟨fun op => ?_, rfl⟩, rfl, rfl⟩
  rw [meaning?_vocabulary, meaning?_vocabulary, h]

/-- Of the history of a vocabulary only the last meaning of each opcode shows.  Let two histories,
from the empty or the standard vocabulary, end with the same last meaning of every opcode, or with
none.  Both vocabularies look an opcode up as that meaning and contain the same opcodes; they list
the same opcodes, strictly in order and without repetition, which are exactly those with a meaning,
and so does sorting these from any order; they list the same spellings, symbols and then names, as
the tables have them; and they are described alike.  Whatever calls two sessions with these
vocabularies go through, starting alike, they have the same results, outputs, stacks and errors
after each. -/
theorem only_last_insertions_show (first second : History)
    (h : ∀ op, first.last? op = second.last? op) :
    (∀ op, first.vocabulary.meaning? op = first.last? op ∧
        second.vocabulary.meaning? op = first.last? op) ∧
      (∀ op, first.vocabulary.contains op = second.vocabulary.contains op) ∧
      (first.vocabulary.opcodes = second.vocabulary.opcodes ∧
        first.vocabulary.opcodes.Pairwise (fun op next => op.rank < next.rank) ∧
        first.vocabulary.opcodes.Nodup ∧
        (∀ op, op ∈ first.vocabulary.opcodes ↔ (first.last? op).isSome = true) ∧
        ∀ keys : List Opcode, keys.Nodup → (∀ op, op ∈ keys ↔ (first.last? op).isSome = true) →
          keys.mergeSort Opcode.notBehind = first.vocabulary.opcodes) ∧
      (first.vocabulary.spellings = second.vocabulary.spellings ∧
        first.vocabulary.spellings =
          ((Spelling.symbols ++ Spelling.names).filter fun spelling =>
            (first.last? spelling.opcode).isSome).map Spelling.text) ∧
      first.vocabulary.description = second.vocabulary.description ∧
      ∀ (stack : Stack Value) (output : String) (lastError? : Option Diagnostic)
        (requests : List Session.Call),
        List.Forall₂ (fun step step' => step.1 = step'.1 ∧ step.2.output = step'.2.output ∧
            step.2.stack = step'.2.stack ∧ step.2.lastError? = step'.2.lastError?)
          (Session.calls ⟨first.vocabulary, stack, output, lastError?⟩ requests)
          (Session.calls ⟨second.vocabulary, stack, output, lastError?⟩ requests) := by
  have hmeaning : ∀ op, first.vocabulary.meaning? op = second.vocabulary.meaning? op := by
    intro op
    rw [meaning?_vocabulary, meaning?_vocabulary, h]
  have hopcodes := Vocabulary.opcodes_congr hmeaning
  refine ⟨?_, ?_, ⟨hopcodes, first.opcodes_vocabulary⟩,
    ⟨Vocabulary.spellings_congr hmeaning, first.spellings_vocabulary⟩, ?_, ?_⟩
  · intro op
    exact ⟨first.meaning?_vocabulary op, (hmeaning op).symm.trans (first.meaning?_vocabulary op)⟩
  · intro op
    rw [Vocabulary.contains_congr hmeaning]
  · rw [Vocabulary.description, Vocabulary.description, hopcodes]
  · intro stack output lastError? requests
    refine (Session.forall₂_calls Session.Same.call (same_sessions h stack output lastError?)
      requests).imp ?_
    rintro step step' ⟨hresult, hsame⟩
    exact ⟨hresult, hsame.output_eq, hsame.stack_eq, hsame.lastError?_eq⟩

/-- The first history has an insertion that is replaced later; the second one starts from nothing
and inserts every opcode, the last ones first.  In both, `dup` means `drop` in the end. -/
theorem only_last_insertions_show_dup :
    (∀ op, (History.mk true [(.dup, .words), (.dup, .drop)]).last? op =
      (History.mk false ((Opcode.all.reverse.map fun op => (op, op)) ++
        [(Opcode.dup, Opcode.drop)])).last? op) ∧
    (History.mk false ((Opcode.all.reverse.map fun op => (op, op)) ++
      [(Opcode.dup, Opcode.drop)])).vocabulary.meaning? .dup = some .drop ∧
    (History.mk true [(.dup, .words), (.dup, .drop)]).vocabulary.opcodes =
      Opcode.all.reverse.mergeSort Opcode.notBehind := by
  have hlast : ∀ op, (History.mk true [(.dup, .words), (.dup, .drop)]).last? op =
      (History.mk false ((Opcode.all.reverse.map fun op => (op, op)) ++
        [(Opcode.dup, Opcode.drop)])).last? op := by
    intro op
    cases op <;> rfl
  obtain ⟨hmeaning, -, ⟨-, -, -, -, hsorted⟩, -, -, -⟩ := only_last_insertions_show _ _ hlast
  refine ⟨hlast, (hmeaning .dup).2, (hsorted Opcode.all.reverse (by decide) ?_).symm⟩
  intro op
  cases op <;> decide

end History

end StackLang
