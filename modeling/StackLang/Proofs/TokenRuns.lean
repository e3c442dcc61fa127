import StackLang.Proofs.SessionRuns

/-!
# Runs of tokens

A session is taken through a list of tokens by `Session.runTokens`, which dispatches them one after
the other and stops at the first error.

Two such runs are compared step by step.  When every token has alike effects on stacks that are
related (`Effect.Alike`), the two runs stop at the same position for the same reason, print the
same text and end with related stacks (`Session.runTokens_related`).  Equal stacks are compared in
this way, and stacks of which one has more values below.
-/

namespace StackLang

/-- Two effects are alike when they raise the same error, print the same text and leave related
stacks. -/
structure Effect.Alike (related : Stack Value → Stack Value → Prop) (first second : Effect) :
    Prop where
  error?_eq : second.error? = first.error?
  printed_eq : second.printed = first.printed
  stack_related : related first.stack second.stack

namespace Session

/-- Dispatches tokens one after the other, up to and with the first one that fails.  The answer has
the position and the error of that one, if there is one, and the session at the end. -/
def runTokens (session : Session) : List Token → Option (Nat × Diagnostic) × Session
  | [] => (none, session)
  | token :: rest =>
    match session.dispatch token with
    | (some d, after) => (some (0, d), after)
    | (none, after) =>
      ((after.runTokens rest).1.map fun stop => (stop.1 + 1, stop.2), (after.runTokens rest).2)

/-- A run of no tokens does nothing. -/
@[simp] lemma runTokens_nil (session : Session) : session.runTokens [] = (none, session) := rfl

/-- A run stops at a token that fails. -/
lemma runTokens_cons_of_error {session : Session} {token : Token} {d : Diagnostic}
    (h : (session.vocabulary.dispatch token session.stack).error? = some d) (rest : List Token) :
    session.runTokens (token :: rest) =
      (some (0, d), session.absorb (session.vocabulary.dispatch token session.stack)) := by
  simp only [runTokens, dispatch_eq_absorb, h]

/-- A run continues behind a token that does not fail. -/
lemma runTokens_cons_of_none {session : Session} {token : Token}
    (h : (session.vocabulary.dispatch token session.stack).error? = none) (rest : List Token) :
    session.runTokens (token :: rest) =
      (((session.absorb (session.vocabulary.dispatch token session.stack)).runTokens rest).1.map
          fun stop => (stop.1 + 1, stop.2),
        ((session.absorb (session.vocabulary.dispatch token session.stack)).runTokens rest).2) := by
  simp only [runTokens, dispatch_eq_absorb, h]

/-- The error at which a run stops was raised by one of its tokens. -/
lemma exists_dispatch_of_runTokens_eq_some {session : Session} {tokens : List Token} {i : Nat}
    {d : Diagnostic} (h : (session.runTokens tokens).1 = some (i, d)) :
    ∃ token ∈ tokens, ∃ s, (session.vocabulary.dispatch token s).error? = some d := by
  induction tokens generalizing session i with
  | nil => cases h
  | cons token rest ih =>
    cases herror : (session.vocabulary.dispatch token session.stack).error? with
    | some e =>
      rw [runTokens_cons_of_error herror] at h
      cases h
      exact ⟨token, List.mem_cons_self, session.stack, herror⟩
    | none =>
      rw [runTokens_cons_of_none herror] at h
      obtain ⟨⟨j, e⟩, hrest, hshift⟩ := Option.map_eq_some_iff.1 h
      cases hshift
      obtain ⟨later, hlater, s, hs⟩ := ih hrest
      exact ⟨later, List.mem_cons_of_mem _ hlater, s, hs⟩

/-- Tokens that print nothing leave the output as it was. -/
lemma output_runTokens_of_silent {session : Session} {tokens : List Token}
    (h : ∀ token ∈ tokens, ∀ s, (session.vocabulary.dispatch token s).printed = "") :
    (session.runTokens tokens).2.output = session.output := by
  induction tokens generalizing session with
  | nil => rfl
  | cons token rest ih =>
    obtain ⟨htoken, hrest⟩ := List.forall_mem_cons.1 h
    let after := session.absorb (session.vocabulary.dispatch token session.stack)
    have hsame : after.output = session.output := by
      simp only [after, absorb, htoken, String.append_empty]
    cases herror : (session.vocabulary.dispatch token session.stack).error? with
    | some d =>
      rw [runTokens_cons_of_error herror]
      exact hsame
    | none =>
      have hlater : (after.runTokens rest).2.output = after.output := ih hrest
      rw [runTokens_cons_of_none herror]
      exact hlater.trans hsame

/-- Two sessions whose tokens have alike effects on related stacks go through lists of them alike.
The effects have to be alike only where the first session raises no error but `tolerated` ones, and
then its run must not end with another error. -/
lemma runTokens_related {related : Stack Value → Stack Value → Prop}
    {tolerated : Diagnostic → Prop} (first second : Session) (rename : Token → Token)
    {tokens : List Token}
    (hdispatch : ∀ token ∈ tokens, ∀ s s', related s s' →
      (∀ d, (first.vocabulary.dispatch token s).error? = some d → tolerated d) →
        Effect.Alike related (first.vocabulary.dispatch token s)
          (second.vocabulary.dispatch (rename token) s'))
    (htolerated : ∀ i d, (first.runTokens tokens).1 = some (i, d) → tolerated d)
    (hstack : related first.stack second.stack) :
    (second.runTokens (tokens.map rename)).1 = (first.runTokens tokens).1 ∧
      related (first.runTokens tokens).2.stack (second.runTokens (tokens.map rename)).2.stack ∧
      ∃ printed, (first.runTokens tokens).2.output = first.output ++ printed ∧
        (second.runTokens (tokens.map rename)).2.output = second.output ++ printed := by
  induction tokens generalizing first second with
  | nil => exact ⟨rfl, hstack, "", by simp⟩
  | cons token rest ih =>
    obtain ⟨htoken, hrest⟩ := List.forall_mem_cons.1 hdispatch
    rw [List.map_cons]
    cases herror : (first.vocabulary.dispatch token first.stack).error? with
    | some d =>
      rw [runTokens_cons_of_error herror] at htolerated ⊢
      have halike := htoken first.stack second.stack hstack fun e he => by
        obtain rfl : d = e := Option.some.inj (herror.symm.trans he)
        exact htolerated 0 d rfl
      rw [runTokens_cons_of_error (halike.error?_eq.trans herror)]
      refine ⟨rfl, halike.stack_related, (first.vocabulary.dispatch token first.stack).printed,
        rfl, ?_⟩
      rw [← halike.printed_eq, absorb]
    | none =>
      rw [runTokens_cons_of_none herror] at htolerated ⊢
      have halike := htoken first.stack second.stack hstack fun e he => by
        rw [herror] at he
        cases he
      rw [runTokens_cons_of_none (halike.error?_eq.trans herror)]
      have htail : ∀ i d,
          ((first.absorb (first.vocabulary.dispatch token first.stack)).runTokens rest).1 =
            some (i, d) → tolerated d := by
        intro i d hstop
        exact htolerated (i + 1) d (by rw [hstop]; rfl)
      obtain ⟨hstop, hlast, printed, hfirst, hsecond⟩ :=
        ih (first.absorb _) (second.absorb _) hrest htail halike.stack_related
      refine ⟨by rw [hstop], hlast,
        (first.vocabulary.dispatch token first.stack).printed ++ printed, ?_, ?_⟩
      · rw [hfirst, ← String.append_assoc]
        rfl
      · rw [hsecond, ← String.append_assoc, ← halike.printed_eq]
        rfl

end Session

end StackLang
