import Mathlib
import StackLang.Proofs.StackEffects
import StackLang.Proofs.TokenRuns

/-!
# Words that can stand for each other

Some short lists of words do the same: `swap +` is `+`, and `swap swap` is nothing at all where two
values lie on the stack.  `Token.Identity depth left right` lists such pairs, each with the depth
from which it holds (`Session.finish_eq_of_identity`).  Where one of them stands in a longer list
of tokens the other can be put in its place, and the run ends as before
(`Session.finish_append_congr`).

Two facts about a pair are enough for this.  Where its operands are on the stack, both lists take
the stack to the same stack and print nothing (`Token.AgreeOn`).  Where they are not, and the pair
is to hold all the same, both lists begin with a word that needs all of them, so both fail at once.
-/

namespace StackLang

/-! ## How a run ends -/

namespace Session

/-- The error at which a run of tokens stops, if it stops, and the session at its end. -/
def finish (session : Session) (tokens : List Token) : Option Diagnostic × Session :=
  ((session.runTokens tokens).1.map Prod.snd, (session.runTokens tokens).2)

variable {session : Session} {token : Token} {front left right back : List Token}

/-- A run of no tokens ends at once. -/
@[simp] lemma finish_nil (session : Session) : session.finish [] = (none, session) := rfl

/-- A run ends with a token that fails. -/
lemma finish_cons_of_error {d : Diagnostic} (h : (session.dispatch token).1 = some d)
    (rest : List Token) : session.finish (token :: rest) = session.dispatch token := by
  rw [fst_dispatch] at h
  rw [finish, runTokens_cons_of_error h, dispatch_eq_absorb, h]
  rfl

/-- A run goes on behind a token that does not fail. -/
lemma finish_cons_of_none (h : (session.dispatch token).1 = none) (rest : List Token) :
    session.finish (token :: rest) = (session.dispatch token).2.finish rest := by
  rw [fst_dispatch] at h
  rw [finish, finish, runTokens_cons_of_none h, snd_dispatch]
  simp only [Option.map_map]
  rfl

/-- A run that stops does not reach what stands behind. -/
lemma finish_append_of_some {d : Diagnostic} (h : (session.finish front).1 = some d)
    (back : List Token) : session.finish (front ++ back) = session.finish front := by
  induction front generalizing session with
  | nil => cases h
  | cons token rest ih =>
    rw [List.cons_append]
    cases hdispatch : (session.dispatch token).1 with
    | some e => rw [finish_cons_of_error hdispatch, finish_cons_of_error hdispatch]
    | none =>
      rw [finish_cons_of_none hdispatch] at h ⊢
      rw [finish_cons_of_none hdispatch, ih h]

/-- A run that does not stop is continued by what stands behind. -/
lemma finish_append_of_none (h : (session.finish front).1 = none) (back : List Token) :
    session.finish (front ++ back) = (session.finish front).2.finish back := by
  induction front generalizing session with
  | nil => rfl
  | cons token rest ih =>
    rw [List.cons_append]
    cases hdispatch : (session.dispatch token).1 with
    | some d =>
      rw [finish_cons_of_error hdispatch, hdispatch] at h
      cases h
    | none =>
      rw [finish_cons_of_none hdispatch] at h ⊢
      rw [finish_cons_of_none hdispatch, ih h]

/-- What can be replaced where it is reached can be replaced in the whole list. -/
lemma finish_append_congr
    (h : (session.finish front).1 = none →
      (session.finish front).2.finish left = (session.finish front).2.finish right)
    (back : List Token) :
    session.finish (front ++ left ++ back) = session.finish (front ++ right ++ back) := by
  cases hfront : (session.finish front).1 with
  | some d => simp only [List.append_assoc, finish_append_of_some hfront]
  | none =>
    have hmiddle := h hfront
    simp only [List.append_assoc, finish_append_of_none hfront]
    cases hleft : ((session.finish front).2.finish left).1 with
    | some d =>
      rw [finish_append_of_some hleft, finish_append_of_some (hmiddle ▸ hleft), hmiddle]
    | none =>
      rw [finish_append_of_none hleft, finish_append_of_none (hmiddle ▸ hleft), hmiddle]

/-- No run changes the vocabulary. -/
lemma vocabulary_finish (session : Session) (tokens : List Token) :
    (session.finish tokens).2.vocabulary = session.vocabulary := by
  induction tokens generalizing session with
  | nil => rfl
  | cons token rest ih =>
    cases hdispatch : (session.dispatch token).1 with
    | some d =>
      rw [finish_cons_of_error hdispatch, vocabulary_dispatch]
    | none =>
      rw [finish_cons_of_none hdispatch, ih, vocabulary_dispatch]

end Session

/-! ## Lists of words that do the same -/

namespace Token

/-- The token with its opcode written as a name. -/
def asWord : Token → Token
  | operator op => word op
  | token => token

/-- Two lists of tokens do the same on stacks of at least the given depth. -/
inductive Identity : Nat → List Token → List Token → Prop
  | swap_plus : Identity 0 [word .swap, word .plus] [word .plus]
  | swap_star : Identity 0 [word .swap, word .star] [word .star]
  | swap_minus : Identity 0 [word .swap, word .minus] [word .minus, word .negate]
  | abs_abs : Identity 0 [word .abs, word .abs] [word .abs]
  | negate_abs : Identity 0 [word .negate, word .abs] [word .abs]
  | swap_swap : Identity 2 [word .swap, word .swap] []
  | over_drop : Identity 2 [word .over, word .drop] []
  | rot_rot_rot : Identity 3 [word .rot, word .rot, word .rot] []
  | dup_drop : Identity 1 [word .dup, word .drop] []
  | negate_negate : Identity 1 [word .negate, word .negate] []
  | dup_plus : Identity 1 [word .dup, word .plus] [number 2, word .star]

/-- The tokens succeed one after the other, print nothing and take a stack to another one. -/
inductive Takes (known : List String) : List Token → List ℚ → List ℚ → Prop
  | nil (all : List ℚ) : Takes known [] all all
  | word {op : Opcode} {rest : List Token} {before middle after : List ℚ}
      (hop : op.Performs known before middle "") (hrest : Takes known rest middle after) :
      Takes known (.word op :: rest) before after
  | number {value : ℚ} {rest : List Token} {before after : List ℚ}
      (hrest : Takes known rest (before ++ [value]) after) :
      Takes known (.number value :: rest) before after

/-- The list begins with a word that needs the given number of values. -/
def BeginsNeeding (need : Nat) (tokens : List Token) : Prop :=
  ∃ op rest, tokens = word op :: rest ∧ op.arity = need

/-- On every stack with the given number of operands on top, both lists take it to the same stack.
-/
def AgreeOn (known : List String) (need : Nat) (left right : List Token) : Prop :=
  ∀ lower operands : List ℚ, operands.length = need →
    ∃ after, Takes known left (lower ++ operands) after ∧
      Takes known right (lower ++ operands) after

variable {known : List String} {depth : Nat} {left right : List Token}

/-- Lists that take the same way from every topmost value agree where there is one. -/
lemma agreeOn_one
    (h : ∀ lower a, ∃ after, Takes known left (lower ++ [a]) after ∧
      Takes known right (lower ++ [a]) after) : AgreeOn known 1 left right := by
  intro lower operands hlen
  obtain ⟨a, rfl⟩ := List.length_eq_one_iff.1 hlen
  exact h lower a

/-- Lists that take the same way from every two topmost values agree where there are two. -/
lemma agreeOn_two
    (h : ∀ lower a b, ∃ after, Takes known left (lower ++ [a, b]) after ∧
      Takes known right (lower ++ [a, b]) after) : AgreeOn known 2 left right := by
  intro lower operands hlen
  obtain ⟨a, b, rfl⟩ := List.length_eq_two.1 hlen
  exact h lower a b

/-- On the operands of a pair both lists take the stack to the same stack.  A pair that holds below
that depth too begins, on both sides, with a word that needs all operands. -/
lemma Identity.exists_agreeOn (h : Identity depth left right) (known : List String) :
    ∃ need, AgreeOn known need left right ∧
      (depth = need ∨ BeginsNeeding need left ∧ BeginsNeeding need right) := by
  cases h with
  | swap_plus =>
    refine ⟨2, agreeOn_two fun lower a b => ?_, Or.inr ⟨⟨_, _, rfl, rfl⟩, ⟨_, _, rfl, rfl⟩⟩⟩
    refine ⟨lower ++ [b + a], .word (.swap lower a b) (.word (.plus lower b a) (.nil _)), ?_⟩
    rw [add_comm]
    exact .word (.plus lower a b) (.nil _)
  | swap_star =>
    refine ⟨2, agreeOn_two fun lower a b => ?_, Or.inr ⟨⟨_, _, rfl, rfl⟩, ⟨_, _, rfl, rfl⟩⟩⟩
    refine ⟨lower ++ [b * a], .word (.swap lower a b) (.word (.star lower b a) (.nil _)), ?_⟩
    rw [mul_comm]
    exact .word (.star lower a b) (.nil _)
  | swap_minus =>
    refine ⟨2, agreeOn_two fun lower a b => ?_, Or.inr ⟨⟨_, _, rfl, rfl⟩, ⟨_, _, rfl, rfl⟩⟩⟩
    refine ⟨lower ++ [b - a], .word (.swap lower a b) (.word (.minus lower b a) (.nil _)), ?_⟩
    rw [← neg_sub]
    exact .word (.minus lower a b) (.word (.negate lower (a - b)) (.nil _))
  | abs_abs =>
    refine ⟨1, agreeOn_one fun lower a => ?_, Or.inr ⟨⟨_, _, rfl, rfl⟩, ⟨_, _, rfl, rfl⟩⟩⟩
    refine ⟨lower ++ [|(|a|)|], .word (.abs lower a) (.word (.abs lower |a|) (.nil _)), ?_⟩
    rw [abs_of_nonneg (abs_nonneg a)]
    exact .word (.abs lower a) (.nil _)
  | negate_abs =>
    refine ⟨1, agreeOn_one fun lower a => ?_, Or.inr ⟨⟨_, _, rfl, rfl⟩, ⟨_, _, rfl, rfl⟩⟩⟩
    refine ⟨lower ++ [|-a|], .word (.negate lower a) (.word (.abs lower (-a)) (.nil _)), ?_⟩
    rw [abs_neg]
    exact .word (.abs lower a) (.nil _)
  | swap_swap =>
    refine ⟨2, agreeOn_two fun lower a b => ?_, Or.inl rfl⟩
    exact ⟨_, .word (.swap lower a b) (.word (.swap lower b a) (.nil _)), .nil _⟩
  | over_drop =>
    refine ⟨2, agreeOn_two fun lower a b => ?_, Or.inl rfl⟩
    have hdrop : Opcode.Performs known .drop (lower ++ [a, b, a]) (lower ++ [a, b]) "" := by
      simpa using Opcode.Performs.drop (lower ++ [a, b]) a
    exact ⟨_, .word (.over lower a b) (.word hdrop (.nil _)), .nil _⟩
  | rot_rot_rot =>
    refine ⟨3, ?_, Or.inl rfl⟩
    intro lower operands hlen
    obtain ⟨a, b, c, rfl⟩ := List.length_eq_three.1 hlen
    exact ⟨_, .word (.rot lower a b c) (.word (.rot lower b c a)
      (.word (.rot lower c a b) (.nil _))), .nil _⟩
  | dup_drop =>
    refine ⟨1, agreeOn_one fun lower a => ?_, Or.inl rfl⟩
    have hdrop : Opcode.Performs known .drop (lower ++ [a, a]) (lower ++ [a]) "" := by
      simpa using Opcode.Performs.drop (lower ++ [a]) a
    exact ⟨_, .word (.dup lower a) (.word hdrop (.nil _)), .nil _⟩
  | negate_negate =>
    refine ⟨1, agreeOn_one fun lower a => ?_, Or.inl rfl⟩
    refine ⟨lower ++ [- -a], .word (.negate lower a) (.word (.negate lower (-a)) (.nil _)), ?_⟩
    rw [neg_neg]
    exact .nil _
  | dup_plus =>
    refine ⟨1, agreeOn_one fun lower a => ?_, Or.inl rfl⟩
    have hstar : Opcode.Performs known .star (lower ++ [a] ++ [2]) (lower ++ [a * 2]) "" := by
      simpa using Opcode.Performs.star lower a 2
    refine ⟨lower ++ [a + a], .word (.dup lower a) (.word (.plus lower a a) (.nil _)), ?_⟩
    rw [← mul_two]
    exact .number (.word hstar (.nil _))

end Token

namespace Session

variable {session : Session} {left right : List Token}

/-- An operator is executed as the name of its opcode is. -/
lemma dispatch_asWord (session : Session) (token : Token) :
    session.dispatch token.asWord = session.dispatch token := by
  cases token <;> rfl

/-- It makes no difference whether an opcode is written as a symbol or as a name. -/
lemma finish_map_asWord (session : Session) (tokens : List Token) :
    session.finish (tokens.map Token.asWord) = session.finish tokens := by
  induction tokens generalizing session with
  | nil => rfl
  | cons token rest ih =>
    rw [List.map_cons]
    have hsame := session.dispatch_asWord token
    cases hdispatch : (session.dispatch token).1 with
    | some d =>
      rw [finish_cons_of_error hdispatch, finish_cons_of_error (hsame ▸ hdispatch), hsame]
    | none =>
      rw [finish_cons_of_none hdispatch, finish_cons_of_none (hsame ▸ hdispatch), hsame, ih]

/-- Tokens that take one stack to another one change nothing else. -/
lemma finish_of_takes (hstandard : session.vocabulary.IsStandard) {tokens : List Token}
    {before after : List ℚ} (h : Token.Takes session.vocabulary.spellings tokens before after) :
    finish { session with stack := .ofList before } tokens =
      (none, { session with stack := .ofList after }) := by
  induction h with
  | nil all => exact finish_nil _
  | @word op rest before middle after hop hrest ih =>
    rw [← Stack.toList_ofList before] at hop
    have hdispatch : dispatch { session with stack := .ofList before } (.word op) =
        (none, { session with stack := .ofList middle }) := by
      have hsame : ({ session with stack := .ofList before } : Session).vocabulary.IsStandard :=
        hstandard
      have hexecute := execute_of_performs hsame hop
      rwa [String.append_empty] at hexecute
    rw [finish_cons_of_none (congrArg Prod.fst hdispatch), hdispatch, ih]
  | @number value rest before after hrest ih =>
    have hdispatch : dispatch { session with stack := .ofList before } (.number value) =
        (none, { session with stack := .ofList (before ++ [value]) }) := by
      have hpush : (Stack.ofList before).push value = .ofList (before ++ [value]) := by
        rw [← Stack.toList_inj]
        simp
      rw [← hpush]
      rfl
    rw [finish_cons_of_none (congrArg Prod.fst hdispatch), hdispatch, ih]

/-- A list that begins with a word for which there are too few values fails at once and changes
nothing. -/
lemma finish_of_beginsNeeding (hstandard : session.vocabulary.IsStandard) {need : Nat}
    {tokens : List Token} (h : Token.BeginsNeeding need tokens) (hfew : session.stack.size < need) :
    session.finish tokens = (some (.raise .stackUnderflow), session) := by
  obtain ⟨op, rest, rfl, rfl⟩ := h
  have hdispatch : session.dispatch (.word op) = (some (.raise .stackUnderflow), session) :=
    execute_of_size_lt hstandard hfew
  rw [finish_cons_of_error (congrArg Prod.fst hdispatch), hdispatch]

/-- The two lists of a pair do the same where the stack is as deep as the pair asks for. -/
lemma finish_eq_of_identity (hstandard : session.vocabulary.IsStandard) {depth : Nat}
    (h : Token.Identity depth left right) (hdepth : depth ≤ session.stack.size) :
    session.finish left = session.finish right := by
  obtain ⟨need, hagree, hneed⟩ := h.exists_agreeOn session.vocabulary.spellings
  rcases Nat.lt_or_ge session.stack.size need with hlt | hle
  · rcases hneed with rfl | ⟨hleft, hright⟩
    · exact absurd hdepth (Nat.not_le.2 hlt)
    · rw [finish_of_beginsNeeding hstandard hleft hlt, finish_of_beginsNeeding hstandard hright hlt]
  · obtain ⟨lower, operands, hs, hlen⟩ := Stack.exists_toList_eq_append hle
    obtain ⟨after, hleft, hright⟩ := hagree lower operands hlen
    have hsession : session = { session with stack := .ofList (lower ++ operands) } := by
      rw [← hs, Stack.ofList_toList]
    rw [hsession, finish_of_takes hstandard hleft, finish_of_takes hstandard hright]

/-- Word identities hold in every context.  In a list of tokens that is run in a standard vocabulary
from any stack, let a part be replaced by what can stand for it; if the run gets to the part, let
the stack be as deep there as the identity asks for, which is no condition for `swap +`, `swap *`,
`swap -`, `abs abs` and `negate abs`.  Then the run ends in the same way, with the same error if it
ends with one, and leaves the same session: the same stack and the same printed text. -/
theorem finish_replaced (session : Session) (hstandard : session.vocabulary.IsStandard)
    (depth : Nat) (front left right back : List Token)
    (hidentity : Token.Identity depth (left.map Token.asWord) (right.map Token.asWord))
    (hdepth : (session.finish front).1 = none → depth ≤ (session.finish front).2.stack.size) :
    session.finish (front ++ left ++ back) = session.finish (front ++ right ++ back) := by
  refine finish_append_congr (fun hfront => ?_) back
  have hstandard' : (session.finish front).2.vocabulary.IsStandard := by
    rwa [vocabulary_finish]
  have hsame := finish_eq_of_identity hstandard' hidentity (hdepth hfront)
  rwa [finish_map_asWord, finish_map_asWord] at hsame

/-- With one value `dup +` doubles it as `2 *` does; with none `swap -` fails as `- negate` does,
and what stands behind is not reached. -/
theorem finish_replaced_doubling :
    Vocabulary.standard.IsStandard ∧
      finish { stack := .ofList [7] } [.word .abs, .word .dup, .operator .plus, .operator .dot] =
        finish { stack := .ofList [7] } [.word .abs, .number 2, .operator .star, .operator .dot] ∧
      finish { stack := .ofList [7] } [.word .abs, .number 2, .operator .star, .operator .dot] =
        (none, { output := "14 " }) ∧
      finish {} [.word .swap, .operator .minus, .number 3] =
        finish {} [.operator .minus, .word .negate, .number 3] ∧
      finish {} [.operator .minus, .word .negate, .number 3] =
        (some (.raise .stackUnderflow), {}) := by
  have hstandard := Vocabulary.isStandard_standard
  refine ⟨hstandard, ?_, by cbv, ?_, by cbv⟩
  · exact finish_replaced { stack := .ofList [7] } hstandard 1 [.word .abs]
      [.word .dup, .operator .plus] [.number 2, .operator .star] [.operator .dot] .dup_plus
      (fun _ => by decide)
  · exact finish_replaced {} hstandard 0 [] [.word .swap, .operator .minus]
      [.operator .minus, .word .negate] [.number 3] .swap_minus (fun _ => Nat.zero_le _)

end Session

end StackLang
