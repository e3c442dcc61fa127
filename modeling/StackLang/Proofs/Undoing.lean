import Mathlib
import StackLang.Proofs.PrintedValues
import StackLang.Proofs.StackEffects

/-!
# Operations that undo one another

The line `3 / -7 /` divides the value on top of the stack by one integer after the other, and such
a chain can be formed with any of the four operations.  A whole chain does what a single step of it
with the sum or the product of the integers would do (`BinaryOp.resultWith?_eq`), which does not
depend on their order.  So a chain of divisions is undone by a chain of multiplications with the
same integers in any order, exactly and however long it is, and a chain of additions by one of
subtractions.
-/

namespace StackLang

open Text

/-! ## Chains of an operation -/

namespace BinaryOp

/-- The symbol with which an operation is written. -/
def symbol : BinaryOp → String
  | .sum => "+"
  | .difference => "-"
  | .product => "*"
  | .quotient => "/"

/-- The token of that symbol. -/
def token : BinaryOp → Token
  | .sum => .operator .plus
  | .difference => .operator .minus
  | .product => .operator .star
  | .quotient => .operator .slash

/-- The words of a chain: each integer with the symbol of the operation behind it. -/
def wordsWith (op : BinaryOp) (numbers : List ℤ) : List String :=
  numbers.flatMap fun n => [Decimal.write n, op.symbol]

/-- The tokens of a chain. -/
def tokensWith (op : BinaryOp) (numbers : List ℤ) : List Token :=
  numbers.flatMap fun n : ℤ => [.number n, op.token]

/-- What a chain makes of a value, which is nothing when it divides by zero. -/
def resultWith? (op : BinaryOp) (numbers : List ℤ) (x : ℚ) : Option ℚ :=
  numbers.foldlM (fun y (n : ℤ) => op.result? y n) x

/-- The integer with which a single step does what a chain does. -/
def total (op : BinaryOp) (numbers : List ℤ) : ℤ :=
  match op with
  | .sum | .difference => numbers.sum
  | .product | .quotient => numbers.prod

/-- A chain does what a single step with the total does. -/
lemma resultWith?_eq (op : BinaryOp) (numbers : List ℤ) (x : ℚ) :
    op.resultWith? numbers x = op.result? x (op.total numbers) := by
  induction numbers generalizing x with
  | nil => cases op <;> simp [resultWith?, result?, total]
  | cons n rest ih =>
    have hstep : op.resultWith? (n :: rest) x =
        (op.result? x n).bind (op.resultWith? rest) := List.foldlM_cons
    rw [hstep, funext ih]
    cases op with
    | sum => simp [result?, total, add_assoc]
    | difference => simp [result?, total, sub_sub]
    | product => simp [result?, total, mul_assoc]
    | quotient =>
      by_cases hn : n = 0
      · simp [result?, total, hn]
      · simp [result?, total, hn, div_div]

/-- The total does not depend on the order of the integers. -/
lemma total_of_perm {ds es : List ℤ} (h : es.Perm ds) (op : BinaryOp) :
    op.total es = op.total ds := by
  cases op with
  | sum => exact h.sum_eq
  | difference => exact h.sum_eq
  | product => exact h.prod_eq
  | quotient => exact h.prod_eq

/-! ## Chains as lines -/

/-- The symbol of an operation is a word. -/
lemma isWord_symbol (op : BinaryOp) : IsWord op.symbol := by
  cases op <;> decide

/-- The symbol of an operation is classified as its token. -/
lemma classify_symbol (op : BinaryOp) : Token.classify op.symbol = op.token := by
  cases op <;> decide

/-- A chain consists of words. -/
lemma isWord_of_mem_wordsWith {op : BinaryOp} {numbers : List ℤ} {word : String}
    (h : word ∈ op.wordsWith numbers) : IsWord word := by
  obtain ⟨n, -, hword⟩ := List.mem_flatMap.1 h
  rcases List.mem_pair.1 hword with rfl | rfl
  · exact Decimal.isWord_write n
  · exact op.isWord_symbol

/-- The words of a chain are classified as its tokens. -/
lemma map_classify_wordsWith (op : BinaryOp) (numbers : List ℤ) :
    (op.wordsWith numbers).map Token.classify = op.tokensWith numbers := by
  rw [wordsWith, tokensWith, List.map_flatMap]
  refine List.flatMap_congr fun n _ => ?_
  rw [List.map_cons, List.map_singleton, (Token.denotes_write n).classify_eq, op.classify_symbol]
  rfl

/-- Two chains, written with single spaces, are lexed to the tokens of the one and then those of the
other. -/
lemma ofLine_chains (first second : BinaryOp) (ds es : List ℤ) :
    Token.ofLine (String.intercalate " " (first.wordsWith ds ++ second.wordsWith es)) =
      first.tokensWith ds ++ second.tokensWith es := by
  have hwords : ∀ word ∈ first.wordsWith ds ++ second.wordsWith es, IsWord word :=
    List.forall_mem_append.2
      ⟨fun _ => isWord_of_mem_wordsWith, fun _ => isWord_of_mem_wordsWith⟩
  rw [Token.ofLine_eq_map_classify, Lexeme.sources_intercalate hwords, List.map_append,
    map_classify_wordsWith, map_classify_wordsWith]

end BinaryOp

/-! ## Running chains -/

namespace Vocabulary

variable {v : Vocabulary}

/-- The token of an operation is dispatched by executing its opcode. -/
lemma dispatch_binaryOp (v : Vocabulary) (op : BinaryOp) (s : Stack Value) :
    v.dispatch op.token s = v.execute op.opcode s := by
  cases op <;> rfl

/-- A chain replaces the topmost value by its result. -/
lemma IsStandard.run_tokensWith (hv : v.IsStandard) {op : BinaryOp} {numbers : List ℤ} {x y : ℚ}
    (h : op.resultWith? numbers x = some y) (rest : List Token) (s : Stack Value) :
    v.run id (op.tokensWith numbers ++ rest) (s.push x) = v.run id rest (s.push y) := by
  induction numbers generalizing x with
  | nil =>
    obtain rfl : x = y := Option.some.inj h
    rfl
  | cons n numbers ih =>
    obtain ⟨z, hz, hrest⟩ := Option.bind_eq_some_iff.1 h
    have hpush : v.dispatch (id (Token.number n)) (s.push x) =
        Effect.quiet ((s.push x).push n) := rfl
    have hstep : v.dispatch (id op.token) ((s.push x).push n) = Effect.quiet (s.push z) := by
      rw [id, dispatch_binaryOp, hv.execute_binary hz]
    have htokens : op.tokensWith (n :: numbers) ++ rest =
        .number n :: op.token :: (op.tokensWith numbers ++ rest) := rfl
    rw [htokens, run_cons_of_quiet hpush, run_cons_of_quiet hstep, ih hrest]

end Vocabulary

namespace Session

/-- Two chains of which the second one undoes the first one leave the session as it was, apart from
what it displays. -/
lemma executeLine_chains {session : Session} (hstandard : session.vocabulary.IsStandard)
    {lower : List ℚ} {x y : ℚ} (hstack : session.stack.toList = lower ++ [x])
    {first second : BinaryOp} {ds es : List ℤ} (hfirst : first.result? x (first.total ds) = some y)
    (hsecond : second.result? y (second.total es) = some x) :
    session.executeLine
        (String.intercalate " " (first.wordsWith ds ++ second.wordsWith es)) =
      ("ok", { session with output := "ok", lastError? := none }) := by
  have htop : session.stack = (Stack.ofList lower).push x := by
    rw [← Stack.toList_inj, hstack, Stack.toList_push, Stack.toList_ofList]
  have hrun : session.vocabulary.run id (first.tokensWith ds ++ second.tokensWith es)
      session.stack = ⟨session.stack, "", none⟩ := by
    rw [← first.resultWith?_eq] at hfirst
    rw [← second.resultWith?_eq] at hsecond
    rw [htop, hstandard.run_tokensWith hfirst, ← List.append_nil (second.tokensWith es),
      hstandard.run_tokensWith hsecond]
    rfl
  rw [← BinaryOp.ofLine_chains] at hrun
  exact executeLine_of_run_eq hrun

/-- A chain is undone exactly by the opposite chain, in whatever order.  Let a session with a
standard vocabulary have any value on top of its stack, and let `es` hold the integers of `ds` in
any order.  When none of them is zero, the line that divides by all of `ds` and then multiplies by
all of `es` displays `ok` and leaves the stack as it was.  The line that adds all of `ds` and then
subtracts all of `es` does so for whatever integers. -/
theorem executeLine_chain_undone (session : Session) (hstandard : session.vocabulary.IsStandard)
    (lower : List ℚ) (x : ℚ) (hstack : session.stack.toList = lower ++ [x]) (ds es : List ℤ)
    (hperm : es.Perm ds) :
    ((∀ d ∈ ds, d ≠ 0) →
      session.executeLine (String.intercalate " "
          (BinaryOp.quotient.wordsWith ds ++ BinaryOp.product.wordsWith es)) =
        ("ok",
          { session with
            stack := .ofList (lower ++ [x])
            output := "ok"
            lastError? := none })) ∧
    session.executeLine (String.intercalate " "
        (BinaryOp.sum.wordsWith ds ++ BinaryOp.difference.wordsWith es)) =
      ("ok",
        { session with
          stack := .ofList (lower ++ [x])
          output := "ok"
          lastError? := none }) := by
  have hsame : Stack.ofList (lower ++ [x]) = session.stack := by
    rw [← hstack, Stack.ofList_toList]
  rw [hsame]
  constructor
  · intro hnonzero
    have hprod : (ds.prod : ℚ) ≠ 0 := by
      rw [Int.cast_ne_zero]
      exact List.prod_ne_zero fun hzero => hnonzero 0 hzero rfl
    refine executeLine_chains hstandard hstack (if_neg hprod) ?_
    rw [BinaryOp.total_of_perm hperm]
    exact congrArg some (div_mul_cancel₀ x hprod)
  · refine executeLine_chains hstandard hstack rfl ?_
    rw [BinaryOp.total_of_perm hperm]
    exact congrArg some (add_sub_cancel_right x (ds.sum : ℚ))

/-- Two thirds are divided by three integers, one of them negative and one of them twice there, and
multiplied by them again.  With zero among them they can still be added and subtracted. -/
theorem executeLine_chain_undone_two_thirds :
    let session : Session := { stack := .ofList [5, 2 / 3] }
    session.vocabulary.IsStandard ∧ session.stack.toList = [5] ++ [2 / 3] ∧
      [7, -3, 7].Perm [-3, 7, (7 : ℤ)] ∧ (∀ d ∈ [-3, 7, (7 : ℤ)], d ≠ 0) ∧
      session.executeLine "-3 / 7 / 7 / 7 * -3 * 7 *" =
        ("ok", { stack := .ofList [5, 2 / 3], output := "ok" }) ∧
      [12, 0].Perm [0, (12 : ℤ)] ∧
      session.executeLine "0 + 12 + 12 - 0 -" =
        ("ok", { stack := .ofList [5, 2 / 3], output := "ok" }) := by
  intro session
  have hstandard : session.vocabulary.IsStandard := Vocabulary.isStandard_standard
  have hstack : session.stack.toList = [5] ++ [2 / 3] := rfl
  have hperm : [7, -3, 7].Perm [-3, 7, (7 : ℤ)] := by decide
  have hnonzero : ∀ d ∈ [-3, 7, (7 : ℤ)], d ≠ 0 := by decide
  have hperm' : [12, 0].Perm [0, (12 : ℤ)] := by decide
  have hdivisions : String.intercalate " " (BinaryOp.quotient.wordsWith [-3, 7, 7] ++
      BinaryOp.product.wordsWith [7, -3, 7]) = "-3 / 7 / 7 / 7 * -3 * 7 *" := by cbv
  have hadditions : String.intercalate " " (BinaryOp.sum.wordsWith [0, 12] ++
      BinaryOp.difference.wordsWith [12, 0]) = "0 + 12 + 12 - 0 -" := by cbv
  refine ⟨hstandard, hstack, hperm, hnonzero, ?_, hperm', ?_⟩
  · rw [← hdivisions]
    exact (executeLine_chain_undone session hstandard _ _ hstack _ _ hperm).1 hnonzero
  · rw [← hadditions]
    exact (executeLine_chain_undone session hstandard _ _ hstack _ _ hperm').2

end Session

end StackLang
