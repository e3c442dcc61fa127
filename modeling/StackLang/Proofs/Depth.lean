import Mathlib
import StackLang.Proofs.StackEffects
import StackLang.Proofs.TokenRuns

/-!
# The depth of the stack

Whether a token finds enough values depends on the depth of the stack and on nothing else, and so
does the depth that it leaves.  Hence the depths in a run can be computed beforehand, without any
values: `Token.depthThrough` simulates them and `Token.firstStuck` is the position of the first
token that cannot be executed.  A run of tokens in a standard vocabulary ends there, or it ends
before in a division by zero, which is the one failure that depends on values
(`Token.EndsByDepth`).
-/

namespace StackLang

/-! ## The simulated depth -/

/-- The depth that a word leaves, by the depth in front of it. -/
def Opcode.depthAfter (op : Opcode) (depth : Nat) : Nat :=
  match op with
  | .plus | .minus | .star | .slash | .dot | .drop => depth - 1
  | .negate | .abs | .dotS | .words | .swap | .rot => depth
  | .depth | .dup | .over => depth + 1
  | .clear => 0

namespace Token

/-- The number of values that a token needs on the stack. -/
def need : Token → Nat
  | number _ => 0
  | operator op => op.arity
  | word op => op.arity
  | unknown _ => 0

/-- The depth that a token leaves, by the depth in front of it. -/
def depthAfter (token : Token) (depth : Nat) : Nat :=
  match token with
  | number _ => depth + 1
  | operator op => op.depthAfter depth
  | word op => op.depthAfter depth
  | unknown _ => depth

/-- Whether a token cannot be executed at a depth: it is unknown, or it needs more values. -/
def isStuck (token : Token) (depth : Nat) : Bool :=
  decide (token.kind = .unknown) || decide (depth < token.need)

/-- The fault with which a token fails that is stuck. -/
def stuckFault (token : Token) : Fault :=
  if token.kind = .unknown then .undefinedWord else .stackUnderflow

/-- The depth behind several tokens. -/
def depthThrough (depth : Nat) (tokens : List Token) : Nat :=
  tokens.foldl (fun reached token => token.depthAfter reached) depth

/-- The position of the first token that is stuck at the depth which the tokens in front of it lead
to, and the number of all tokens when there is none. -/
def firstStuck (depth : Nat) (tokens : List Token) : Nat :=
  (List.range tokens.length).findIdx fun i =>
    tokens[i]?.any fun token => token.isStuck (depthThrough depth (tokens.take i))

/-- No tokens keep the depth. -/
@[simp] lemma depthThrough_nil (depth : Nat) : depthThrough depth [] = depth := rfl

/-- The depth behind the first token is where the others start. -/
@[simp] lemma depthThrough_cons (depth : Nat) (token : Token) (rest : List Token) :
    depthThrough depth (token :: rest) = depthThrough (token.depthAfter depth) rest := rfl

/-- Among no tokens the first stuck one is behind the end. -/
@[simp] lemma firstStuck_nil (depth : Nat) : firstStuck depth [] = 0 := rfl

/-- The first token is the first stuck one, or it is looked for behind it at the new depth. -/
lemma firstStuck_cons (depth : Nat) (token : Token) (rest : List Token) :
    firstStuck depth (token :: rest) =
      bif token.isStuck depth then 0 else firstStuck (token.depthAfter depth) rest + 1 := by
  simp only [firstStuck, List.length_cons, List.range_succ_eq_map, List.findIdx_cons,
    List.findIdx_map]
  rfl

/-- The token without its value or text.  All numbers have the same shape, all unknown words have
the same shape, and it does not matter whether an opcode is written as a symbol or as a name. -/
def shape : Token → Token
  | number _ => number 0
  | operator op => word op
  | word op => word op
  | unknown _ => unknown ""

/-- Whether a token is stuck can be seen from its shape. -/
@[simp] lemma isStuck_shape (token : Token) (depth : Nat) :
    token.shape.isStuck depth = token.isStuck depth := by
  cases token <;> rfl

/-- The depth after a token can be seen from its shape. -/
@[simp] lemma depthAfter_shape (token : Token) (depth : Nat) :
    token.shape.depthAfter depth = token.depthAfter depth := by
  cases token <;> rfl

/-- The fault of a stuck token can be seen from its shape. -/
@[simp] lemma stuckFault_shape (token : Token) : token.shape.stuckFault = token.stuckFault := by
  cases token <;> rfl

/-- The shape of a token keeps its opcode. -/
@[simp] lemma opcode?_shape (token : Token) : token.shape.opcode? = token.opcode? := by
  cases token <;> rfl

/-- The depth behind tokens can be seen from their shapes. -/
@[simp] lemma depthThrough_map_shape (depth : Nat) (tokens : List Token) :
    depthThrough depth (tokens.map shape) = depthThrough depth tokens := by
  simp [depthThrough, List.foldl_map]

/-- The first stuck token can be found from the shapes. -/
@[simp] lemma firstStuck_map_shape (depth : Nat) (tokens : List Token) :
    firstStuck depth (tokens.map shape) = firstStuck depth tokens := by
  induction tokens generalizing depth with
  | nil => rfl
  | cons token rest ih => simp [firstStuck_cons, ih]

/-! ## How a run can end -/

/-- The ways in which a run of tokens from a given depth can end: the position and the error of the
token at which it stops, if it stops, and the depth at the end. -/
inductive EndsByDepth (depth : Nat) (tokens : List Token) : Option (Nat × Diagnostic) → Nat → Prop
  /-- No token is stuck, and all of them are executed. -/
  | through (hfirst : firstStuck depth tokens = tokens.length) :
      EndsByDepth depth tokens none (depthThrough depth tokens)
  /-- All tokens in front of the first one that is stuck are executed, and that one fails. -/
  | stuck (token : Token) (htoken : tokens[firstStuck depth tokens]? = some token) :
      EndsByDepth depth tokens (some (firstStuck depth tokens, .raise token.stuckFault))
        (depthThrough depth (tokens.take (firstStuck depth tokens)))
  /-- A division in front of the first token that is stuck divides by zero, and its two operands are
  gone. -/
  | divided {i final : Nat} (token : Token) (hlt : i < firstStuck depth tokens)
      (htoken : tokens[i]? = some token) (hslash : token.opcode? = some .slash)
      (hfinal : final + 2 = depthThrough depth (tokens.take i)) :
      EndsByDepth depth tokens (some (i, .raise .divisionByZero)) final

namespace EndsByDepth

variable {depth final final' : Nat} {tokens : List Token}
  {stop? stop?' : Option (Nat × Diagnostic)}

/-- A token in front that is executed moves the end of the run by one position. -/
lemma cons {token : Token} (hfree : token.isStuck depth = false)
    (h : EndsByDepth (token.depthAfter depth) tokens stop? final) :
    EndsByDepth depth (token :: tokens) (stop?.map fun stop => (stop.1 + 1, stop.2)) final := by
  have hfirst : firstStuck depth (token :: tokens) =
      firstStuck (token.depthAfter depth) tokens + 1 := by
    rw [firstStuck_cons, hfree, cond_false]
  cases h with
  | through hlength => exact .through (by rw [hfirst, hlength, List.length_cons])
  | stuck found htoken =>
    have hfound : (token :: tokens)[firstStuck depth (token :: tokens)]? = some found := by
      rw [hfirst, List.getElem?_cons_succ, htoken]
    have hends := EndsByDepth.stuck _ hfound
    rwa [hfirst] at hends
  | divided found hlt htoken hslash hfinal =>
    exact .divided found (by omega) (by rwa [List.getElem?_cons_succ]) hslash hfinal

/-- How a run can end depends on the shapes of its tokens only. -/
lemma map_shape (h : EndsByDepth depth tokens stop? final) :
    EndsByDepth depth (tokens.map shape) stop? final := by
  cases h with
  | through hlength =>
    have hends : EndsByDepth depth (tokens.map shape) none _ := .through (by simpa using hlength)
    rwa [depthThrough_map_shape] at hends
  | stuck found htoken =>
    have hfound : (tokens.map shape)[firstStuck depth (tokens.map shape)]? = some found.shape := by
      simp [htoken]
    have hends := EndsByDepth.stuck _ hfound
    rwa [firstStuck_map_shape, stuckFault_shape, ← List.map_take, depthThrough_map_shape] at hends
  | divided found hlt htoken hslash hfinal =>
    refine .divided found.shape (by simpa using hlt) (by simp [htoken]) (by simpa) ?_
    rwa [← List.map_take, depthThrough_map_shape]

/-- Without a division by zero there is only one way to end. -/
lemma unique (h : EndsByDepth depth tokens stop? final)
    (h' : EndsByDepth depth tokens stop?' final')
    (hdivides : ∀ i, stop? ≠ some (i, .raise .divisionByZero))
    (hdivides' : ∀ i, stop?' ≠ some (i, .raise .divisionByZero)) :
    stop?' = stop? ∧ final' = final := by
  cases h with
  | divided => exact absurd rfl (hdivides _)
  | through hlength =>
    cases h' with
    | divided => exact absurd rfl (hdivides' _)
    | through => exact ⟨rfl, rfl⟩
    | stuck token htoken =>
      rw [hlength] at htoken
      simp at htoken
  | stuck token htoken =>
    cases h' with
    | divided => exact absurd rfl (hdivides' _)
    | through hlength =>
      rw [hlength] at htoken
      simp at htoken
    | stuck token' htoken' =>
      obtain rfl := Option.some.inj (htoken.symm.trans htoken')
      exact ⟨rfl, rfl⟩

end EndsByDepth

end Token

/-! ## Depths of stacks -/

/-- A word that performs leaves the simulated depth. -/
lemma Opcode.Performs.length_eq {known : List String} {op : Opcode} {before after : List ℚ}
    {text : String} (h : op.Performs known before after text) :
    after.length = op.depthAfter before.length := by
  cases h <;> simp [depthAfter]

namespace Vocabulary

variable {v : Vocabulary} {token : Token} {s : Stack Value}

/-- A token that is stuck at the depth of the stack fails and leaves the stack as it was. -/
lemma IsStandard.dispatch_of_isStuck (hv : v.IsStandard) (h : token.isStuck s.size = true) :
    v.dispatch token s = Effect.failure s (.raise token.stuckFault) := by
  have hexecute : ∀ op : Opcode, s.size < op.arity →
      v.execute op s = Effect.failure s (.raise .stackUnderflow) := by
    intro op hlt
    rw [hv.execute_eq, Opcode.effect_of_size_lt hlt]
  cases token with
  | number value => cases h
  | operator op => exact hexecute op (of_decide_eq_true h)
  | word op => exact hexecute op (of_decide_eq_true h)
  | unknown text => rfl

/-- An opcode that finds enough values leaves the simulated depth, or it divides by zero. -/
lemma IsStandard.execute_of_arity_le (hv : v.IsStandard) {op : Opcode} (h : op.arity ≤ s.size) :
    (v.execute op s).error? = none ∧ (v.execute op s).stack.size = op.depthAfter s.size ∨
      op = .slash ∧ (v.execute op s).error? = some (.raise .divisionByZero) ∧
        (v.execute op s).stack.size + 2 = s.size := by
  rw [hv.execute_eq]
  rcases Opcode.performs_or_divides_by_zero h v.spellings with
    ⟨after, text, hperforms⟩ | ⟨rfl, lower, b, hs⟩
  · rw [hperforms.effect_eq]
    refine Or.inl ⟨rfl, ?_⟩
    rw [← Stack.length_toList, Stack.toList_ofList, hperforms.length_eq, Stack.length_toList]
  · rw [Opcode.effect_slash_of_zero hs]
    refine Or.inr ⟨rfl, rfl, ?_⟩
    rw [← Stack.length_toList s, hs]
    simp [Effect.failure, ← Stack.length_toList]

/-- A token that is not stuck leaves the simulated depth, or it divides by zero. -/
lemma IsStandard.dispatch_of_not_isStuck (hv : v.IsStandard) (h : token.isStuck s.size = false) :
    (v.dispatch token s).error? = none ∧ (v.dispatch token s).stack.size = token.depthAfter s.size ∨
      token.opcode? = some .slash ∧ (v.dispatch token s).error? = some (.raise .divisionByZero) ∧
        (v.dispatch token s).stack.size + 2 = s.size := by
  have harity : token.need ≤ s.size := by
    simp only [Token.isStuck, Bool.or_eq_false_iff, decide_eq_false_iff_not] at h
    omega
  cases token with
  | number value => exact Or.inl ⟨rfl, rfl⟩
  | unknown text => cases h
  | operator op =>
    exact (hv.execute_of_arity_le harity).imp_right fun ⟨hop, hfails⟩ => ⟨congrArg some hop, hfails⟩
  | word op =>
    exact (hv.execute_of_arity_le harity).imp_right fun ⟨hop, hfails⟩ => ⟨congrArg some hop, hfails⟩

end Vocabulary

namespace Session

/-- A run of tokens in a standard vocabulary ends in one of the ways that the depth allows. -/
lemma endsByDepth_runTokens (session : Session) (hstandard : session.vocabulary.IsStandard)
    (tokens : List Token) :
    Token.EndsByDepth session.stack.size tokens (session.runTokens tokens).1
      (session.runTokens tokens).2.stack.size := by
  induction tokens generalizing session with
  | nil => exact .through rfl
  | cons token rest ih =>
    cases hstuck : token.isStuck session.stack.size with
    | true =>
      have hfirst : Token.firstStuck session.stack.size (token :: rest) = 0 := by
        rw [Token.firstStuck_cons, hstuck, cond_true]
      have hends : Token.EndsByDepth session.stack.size (token :: rest) _ _ :=
        .stuck token (by rw [hfirst]; rfl)
      have hdispatch := hstandard.dispatch_of_isStuck hstuck
      have herror : (session.vocabulary.dispatch token session.stack).error? =
          some (.raise token.stuckFault) := by rw [hdispatch]; rfl
      rw [hfirst] at hends
      rw [runTokens_cons_of_error herror]
      simp only [absorb, hdispatch]
      exact hends
    | false =>
      rcases hstandard.dispatch_of_not_isStuck hstuck with
        ⟨herror, hsize⟩ | ⟨hslash, herror, hsize⟩
      · rw [runTokens_cons_of_none herror]
        let after := session.absorb (session.vocabulary.dispatch token session.stack)
        have hrest := ih after hstandard
        have hdepth : after.stack.size = token.depthAfter session.stack.size := hsize
        rw [hdepth] at hrest
        exact hrest.cons hstuck
      · rw [runTokens_cons_of_error herror]
        refine .divided token ?_ rfl hslash hsize
        rw [Token.firstStuck_cons, hstuck, cond_false]
        omega

/-- Underflow is decided by the depth alone.  In a standard vocabulary a run of tokens executes all
tokens in front of the first one that is stuck at the simulated depth and fails there, as an
undefined word or for want of values, with the simulated depth in front of that token; or no token
is stuck and all are executed; or a division in front of that place divides by zero and leaves two
values fewer than the simulated depth.  So from stacks of the same depth, tokens of the same shapes
that never divide by zero stop at the same position for the same reason and end at the same depth,
whatever the values are. -/
theorem runTokens_decided_by_depth (session : Session) (hstandard : session.vocabulary.IsStandard)
    (tokens : List Token) :
    Token.EndsByDepth session.stack.size tokens (session.runTokens tokens).1
        (session.runTokens tokens).2.stack.size ∧
      ∀ (other : Session) (tokens' : List Token), other.vocabulary.IsStandard →
        other.stack.size = session.stack.size →
        tokens'.map Token.shape = tokens.map Token.shape →
        (∀ i, (session.runTokens tokens).1 ≠ some (i, .raise .divisionByZero)) →
        (∀ i, (other.runTokens tokens').1 ≠ some (i, .raise .divisionByZero)) →
          (other.runTokens tokens').1 = (session.runTokens tokens).1 ∧
            (other.runTokens tokens').2.stack.size = (session.runTokens tokens).2.stack.size := by
  have hends := session.endsByDepth_runTokens hstandard tokens
  refine ⟨hends, ?_⟩
  intro other tokens' hstandard' hsize hshapes hdivides hdivides'
  have hends' := (other.endsByDepth_runTokens hstandard' tokens').map_shape
  rw [hsize, hshapes] at hends'
  exact hends.map_shape.unique hends' hdivides hdivides'

/-- From two values the second `+` is stuck, one value deep.  A zero at the bottom is copied to the
top and ends the run at the division; other values, and other ways to write the opcodes, let it
reach the place that was computed. -/
theorem runTokens_decided_by_depth_over_slash :
    Vocabulary.standard.IsStandard ∧
      Token.firstStuck 2 [.word .over, .operator .slash, .operator .plus, .operator .plus] = 3 ∧
      Token.EndsByDepth 2 [.word .over, .operator .slash, .operator .plus, .operator .plus]
        (some (1, .raise .divisionByZero)) 1 ∧
      (runTokens { stack := .ofList [1, 3] }
        [.word .over, .operator .slash, .operator .plus, .operator .plus]).1 =
          some (3, .raise .stackUnderflow) ∧
      (runTokens { stack := .ofList [2, 5] }
        [.operator .over, .word .slash, .operator .plus, .word .plus]).1 =
          some (3, .raise .stackUnderflow) ∧
      (runTokens { stack := .ofList [2, 5] }
        [.operator .over, .word .slash, .operator .plus, .word .plus]).2.stack.size = 1 := by
  have hzero : runTokens { stack := .ofList [0, 3] }
      [.word .over, .operator .slash, .operator .plus, .operator .plus] =
        (some (1, .raise .divisionByZero), { stack := .ofList [0] }) := by cbv
  have hfirst : runTokens { stack := .ofList [1, 3] }
      [.word .over, .operator .slash, .operator .plus, .operator .plus] =
        (some (3, .raise .stackUnderflow), { stack := .ofList [4] }) := by cbv
  have hdivides : ∀ i, (runTokens { stack := .ofList [2, 5] }
      [.operator .over, .word .slash, .operator .plus, .word .plus]).1 ≠
        some (i, .raise .divisionByZero) := by
    intro i
    have hfault : (runTokens { stack := .ofList [2, 5] }
      [.operator .over, .word .slash, .operator .plus, .word .plus]).1.map
        (fun stop => stop.2.fault) = some .stackUnderflow := by cbv
    intro hstop
    rw [hstop] at hfault
    cases hfault
  have hstandard := Vocabulary.isStandard_standard
  have hends := (runTokens_decided_by_depth { stack := .ofList [0, 3] } hstandard
    [.word .over, .operator .slash, .operator .plus, .operator .plus]).1
  rw [hzero] at hends
  obtain ⟨hstop, hsize⟩ := (runTokens_decided_by_depth { stack := .ofList [1, 3] } hstandard
    [.word .over, .operator .slash, .operator .plus, .operator .plus]).2 { stack := .ofList [2, 5] }
    [.operator .over, .word .slash, .operator .plus, .word .plus] hstandard rfl rfl
    (by rw [hfirst]; intro i hi; cases hi) hdivides
  rw [hfirst] at hstop hsize
  exact ⟨hstandard, by decide, hends, by rw [hfirst], hstop, hsize⟩

end Session

end StackLang
