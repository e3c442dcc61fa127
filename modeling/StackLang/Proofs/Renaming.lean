import StackLang.Proofs.PostfixArithmetic
import StackLang.Proofs.TokenRuns

/-!
# Vocabularies as renamings

A vocabulary only decides which built-in meaning an opcode has.  So running tokens with a vocabulary
of one's own is running other tokens with the standard one: every opcode is replaced by the built-in
opcode that it behaves as, and an opcode without a meaning by an unknown word
(`Session.runTokens_renamed`).  The one meaning that looks at the vocabulary again is that of
`words`, which lists it.
-/

namespace StackLang

/-! ## One token -/

/-- Only what `words` does depends on the known words. -/
lemma Opcode.Performs.of_ne_words {op : Opcode} {known : List String} {before after : List ℚ}
    {text : String} (h : op.Performs known before after text) (hop : op ≠ .words)
    (known' : List String) : op.Performs known' before after text := by
  cases h with
  | words all => exact absurd rfl hop
  | slash lower b a ha => exact .slash lower b a ha
  | _ => constructor

/-- The effect of a meaning is the same in all vocabularies, if those in which `words` is executed
list the same words. -/
lemma Opcode.effect_congr {op : Opcode} {v w : Vocabulary}
    (h : op = .words → v.spellings = w.spellings) (s : Stack Value) :
    op.effect v s = op.effect w s := by
  rcases op.performs_or_fails v.spellings s with ⟨after, text, hperforms⟩ | hlt | ⟨rfl, lower, b, hs⟩
  · have hsame : op.Performs w.spellings s.toList after text := by
      by_cases hwords : op = .words
      · rwa [← h hwords]
      · exact hperforms.of_ne_words hwords _
    rw [hperforms.effect_eq, hsame.effect_eq]
  · rw [effect_of_size_lt hlt, effect_of_size_lt hlt]
  · rw [effect_slash_of_zero hs, effect_slash_of_zero hs]

/-- What is executed is decided by the meaning of the opcode and, for `words`, by the listed
words. -/
lemma Vocabulary.execute_congr {v w : Vocabulary} {op op' : Opcode}
    (hmeaning : v.meaning? op = w.meaning? op')
    (hlisted : v.meaning? op = some .words → v.spellings = w.spellings) (s : Stack Value) :
    v.execute op s = w.execute op' s := by
  unfold execute
  rw [← hmeaning]
  cases h : v.meaning? op with
  | none => rfl
  | some meaning => exact Opcode.effect_congr (fun hwords => hlisted (by rw [h, hwords])) s

namespace Token

/-- The token whose opcode is replaced by the built-in one that it behaves as.  A token whose opcode
has no meaning becomes an unknown word. -/
def renamed (v : Vocabulary) : Token → Token
  | number value => number value
  | operator op =>
    match v.meaning? op with
    | some meaning => operator meaning
    | none => unknown (operator op).text
  | word op =>
    match v.meaning? op with
    | some meaning => word meaning
    | none => unknown (word op).text
  | unknown text => unknown text

end Token

namespace Vocabulary

variable {v w : Vocabulary}

/-- A standard vocabulary executes the meaning that another one gives to an opcode. -/
lemma IsStandard.execute_meaning (hw : w.IsStandard) {op meaning : Opcode}
    (hmeaning : v.meaning? op = some meaning) (hwords : meaning ≠ .words) (s : Stack Value) :
    w.execute meaning s = v.execute op s := by
  apply execute_congr
  · rw [hw, hmeaning]
  · intro h
    rw [hw, Option.some.injEq] at h
    exact absurd h hwords

/-- A token does in a vocabulary what its renamed form does in a standard one. -/
lemma IsStandard.dispatch_renamed (hw : w.IsStandard) {token : Token}
    (hwords : token.opcode?.bind v.meaning? ≠ some .words) (s : Stack Value) :
    w.dispatch (token.renamed v) s = v.dispatch token s := by
  -- symbols and names differ only in how they are written
  have hopcode : ∀ op meaning, token.opcode? = some op → v.meaning? op = some meaning →
      w.execute meaning s = v.execute op s := by
    intro op meaning hop hmeaning
    rw [hop, Option.bind_some, hmeaning] at hwords
    exact hw.execute_meaning hmeaning (fun h => hwords (congrArg some h)) s
  cases token with
  | number value => rfl
  | unknown text => rfl
  | operator op =>
    cases hmeaning : v.meaning? op with
    | none => simp only [Token.renamed, dispatch, execute, hmeaning]
    | some meaning =>
      simp only [Token.renamed, hmeaning]
      exact hopcode op meaning rfl hmeaning
  | word op =>
    cases hmeaning : v.meaning? op with
    | none => simp only [Token.renamed, dispatch, execute, hmeaning]
    | some meaning =>
      simp only [Token.renamed, hmeaning]
      exact hopcode op meaning rfl hmeaning

end Vocabulary

/-! ## Token by token -/

namespace Session

/-- Two sessions whose tokens have the same effects one by one go through lists of them alike: they
stop at the same position for the same reason, with the same stack, and print the same text. -/
lemma runTokens_lockstep (first second : Session) (rename : Token → Token) {tokens : List Token}
    (hdispatch : ∀ token ∈ tokens, ∀ s,
      second.vocabulary.dispatch (rename token) s = first.vocabulary.dispatch token s)
    (hstack : first.stack = second.stack) :
    (second.runTokens (tokens.map rename)).1 = (first.runTokens tokens).1 ∧
      (second.runTokens (tokens.map rename)).2.stack = (first.runTokens tokens).2.stack ∧
      ∃ printed, (first.runTokens tokens).2.output = first.output ++ printed ∧
        (second.runTokens (tokens.map rename)).2.output = second.output ++ printed := by
  have halike : ∀ token ∈ tokens, ∀ s s', s = s' →
      (∀ d, (first.vocabulary.dispatch token s).error? = some d → True) →
        Effect.Alike Eq (first.vocabulary.dispatch token s)
          (second.vocabulary.dispatch (rename token) s') := by
    rintro token htoken s _ rfl -
    rw [hdispatch token htoken]
    exact ⟨rfl, rfl, rfl⟩
  obtain ⟨hstop, hlast, hprinted⟩ :=
    runTokens_related first second rename halike (fun _ _ _ => trivial) hstack
  exact ⟨hstop, hlast.symm, hprinted⟩

/-- A vocabulary is a renaming of the standard one.  Tokens of which none means `words` are run by a
session with any vocabulary as their renamed forms are by a standard session with the same stack:
both succeed, or both stop at the same position with the same error; they end with the same stack
and print the same text. -/
theorem runTokens_renamed (session standard : Session) (tokens : List Token)
    (hstandard : standard.vocabulary.IsStandard) (hstack : session.stack = standard.stack)
    (hwords : ∀ token ∈ tokens, token.opcode?.bind session.vocabulary.meaning? ≠ some .words) :
    (standard.runTokens (tokens.map (Token.renamed session.vocabulary))).1 =
        (session.runTokens tokens).1 ∧
      (standard.runTokens (tokens.map (Token.renamed session.vocabulary))).2.stack =
        (session.runTokens tokens).2.stack ∧
      ∃ printed, (session.runTokens tokens).2.output = session.output ++ printed ∧
        (standard.runTokens (tokens.map (Token.renamed session.vocabulary))).2.output =
          standard.output ++ printed := by
  apply runTokens_lockstep session standard _ _ hstack
  intro token htoken s
  exact hstandard.dispatch_renamed (hwords token htoken) s

/-- The signs are exchanged here, `.` shows the whole stack, and `dup` has no meaning. -/
theorem runTokens_renamed_exchanged_signs :
    Vocabulary.standard.IsStandard ∧
      (∀ token ∈ [Token.number 7, .number 5, .operator .plus, .operator .dot, .word .dup],
        token.opcode?.bind
          (Vocabulary.mk [(.plus, .minus), (.minus, .plus), (.dot, .dotS)]).meaning? ≠
            some .words) ∧
      ((new ⟨[(.plus, .minus), (.minus, .plus), (.dot, .dotS)]⟩).runTokens
        [.number 7, .number 5, .operator .plus, .operator .dot, .word .dup]).1 =
          some (4, .raise .undefinedWord) ∧
      ((new ⟨[(.plus, .minus), (.minus, .plus), (.dot, .dotS)]⟩).runTokens
        [.number 7, .number 5, .operator .plus, .operator .dot, .word .dup]).2.stack.toList =
          [2] := by
  have hwords : ∀ token ∈ [Token.number 7, .number 5, .operator .plus, .operator .dot, .word .dup],
      token.opcode?.bind
        (Vocabulary.mk [(.plus, .minus), (.minus, .plus), (.dot, .dotS)]).meaning? ≠
          some .words := by decide
  obtain ⟨hstop, hstack, -⟩ :=
    runTokens_renamed (new ⟨[(.plus, .minus), (.minus, .plus), (.dot, .dotS)]⟩) {} _
      Vocabulary.isStandard_standard rfl hwords
  refine ⟨Vocabulary.isStandard_standard, hwords, ?_, ?_⟩
  · rw [← hstop]
    cbv
  · rw [← hstack]
    cbv

end Session

end StackLang
