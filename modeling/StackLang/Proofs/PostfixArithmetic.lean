import Mathlib
import StackLang.Proofs.Expression
import StackLang.Proofs.SessionRuns

/-!
# Postfix arithmetic

A line that lists the words of an expression in postorder computes the expression.  If the
expression has a value, the value is pushed.  If not, the line stops at its first division by zero;
the two operands of that division are gone, and the left operands that still wait for their
operators are left on the stack.

The proof runs the words of an expression in front of any further words, on any stack, so that the
statements for the operands of an operator can be put one behind the other.
-/

namespace StackLang

open Text

/-- In the vocabulary every opcode has its own meaning, as it has in the standard one. -/
def Vocabulary.IsStandard (v : Vocabulary) : Prop := ∀ op, v.meaning? op = some op

/-- The standard vocabulary is standard. -/
lemma Vocabulary.isStandard_standard : standard.IsStandard := meaning?_standard

/-- In a standard vocabulary an opcode has its own effect. -/
lemma Vocabulary.IsStandard.execute_eq {v : Vocabulary} (hv : v.IsStandard) (op : Opcode)
    (s : Stack Value) : v.execute op s = op.effect v s := by
  simp only [execute, hv op]

/-! ## Single operations -/

/-- The opcode of a unary operation. -/
def UnaryOp.opcode : UnaryOp → Opcode
  | .negate => .negate
  | .magnitude => .abs

/-- The opcode of a binary operation. -/
def BinaryOp.opcode : BinaryOp → Opcode
  | .sum => .plus
  | .difference => .minus
  | .product => .star
  | .quotient => .slash

/-- The word of a unary operation replaces the topmost value by the exact result. -/
lemma UnaryOp.performs (op : UnaryOp) (known : List String) (lower : List ℚ) (x : ℚ) :
    op.opcode.Performs known (lower ++ [x]) (lower ++ [op.result x]) "" := by
  cases op with
  | negate => exact .negate lower x
  | magnitude => exact .abs lower x

/-- The word of a binary operation replaces two values by their exact result, if they have one. -/
lemma BinaryOp.performs {op : BinaryOp} {x y z : ℚ} (h : op.result? x y = some z)
    (known : List String) (lower : List ℚ) :
    op.opcode.Performs known (lower ++ [x, y]) (lower ++ [z]) "" := by
  cases op with
  | sum =>
    obtain rfl : x + y = z := Option.some.inj h
    exact .plus lower x y
  | difference =>
    obtain rfl : x - y = z := Option.some.inj h
    exact .minus lower x y
  | product =>
    obtain rfl : x * y = z := Option.some.inj h
    exact .star lower x y
  | quotient =>
    obtain ⟨hy, hz⟩ : y ≠ 0 ∧ x / y = z := by simpa [result?] using h
    rw [← hz]
    exact .slash lower x y hy

namespace Vocabulary

variable {v : Vocabulary} {α : Type} {tokenOf : α → Token}

/-- A unary operation replaces the topmost value. -/
lemma IsStandard.execute_unary (hv : v.IsStandard) (op : UnaryOp) (s : Stack Value) (x : ℚ) :
    v.execute op.opcode (s.push x) = Effect.quiet (s.push (op.result x)) := by
  have hperforms := op.performs v.spellings s.toList x
  rw [← Stack.toList_push, ← Stack.toList_push] at hperforms
  rw [hv.execute_eq, hperforms.effect_eq, Stack.ofList_toList]
  rfl

/-- A binary operation with a result replaces the two topmost values. -/
lemma IsStandard.execute_binary (hv : v.IsStandard) {op : BinaryOp} {x y z : ℚ}
    (h : op.result? x y = some z) (s : Stack Value) :
    v.execute op.opcode ((s.push x).push y) = Effect.quiet (s.push z) := by
  have hbefore : ((s.push x).push y).toList = s.toList ++ [x, y] := by simp
  have hperforms := BinaryOp.performs h v.spellings s.toList
  rw [← hbefore, ← Stack.toList_push] at hperforms
  rw [hv.execute_eq, hperforms.effect_eq, Stack.ofList_toList]
  rfl

/-- A binary operation without a result has taken off the two topmost values. -/
lemma IsStandard.execute_binary_of_none (hv : v.IsStandard) {op : BinaryOp} {x y : ℚ}
    (h : op.result? x y = none) (s : Stack Value) :
    v.execute op.opcode ((s.push x).push y) = Effect.failure s (.raise .divisionByZero) := by
  obtain ⟨rfl, rfl⟩ := Expression.result?_eq_none_iff.1 h
  have hbefore : ((s.push x).push 0).toList = s.toList ++ [x, 0] := by simp
  rw [hv.execute_eq, BinaryOp.opcode, Opcode.effect_slash_of_zero hbefore, Stack.ofList_toList]

/-! ## Running the words of an expression -/

/-- The word of a unary expression is the opcode of its operation. -/
lemma dispatch_unary (v : Vocabulary) (op : UnaryOp) (operand : Expression) (s : Stack Value) :
    v.dispatch (Expression.unary op operand).token s = v.execute op.opcode s := by
  cases op <;> rfl

/-- The word of a binary expression is the opcode of its operation. -/
lemma dispatch_binary (v : Vocabulary) (op : BinaryOp) (left right : Expression)
    (s : Stack Value) :
    v.dispatch (Expression.binary op left right).token s = v.execute op.opcode s := by
  cases op <;> rfl

/-- A token that only changes the stack passes the new stack on. -/
lemma run_cons_of_quiet {item : α} {s after : Stack Value}
    (h : v.dispatch (tokenOf item) s = Effect.quiet after) (rest : List α) :
    v.run tokenOf (item :: rest) s = v.run tokenOf rest after := by
  have hnone : (v.dispatch (tokenOf item) s).error? = none := by rw [h]; rfl
  rw [run_cons_of_none hnone, h]
  simp [Run.andThen, Effect.quiet]

/-- Items that stand for a unary expression are those of its operand and one for its operation. -/
lemma exists_items_unary {op : UnaryOp} {operand : Expression} {items : List α}
    (h : items.map tokenOf = (Expression.unary op operand).postorder.map Expression.token) :
    ∃ front top, items = front ++ [top] ∧
      front.map tokenOf = operand.postorder.map Expression.token ∧
      tokenOf top = (Expression.unary op operand).token := by
  rw [Expression.postorder, List.map_append] at h
  obtain ⟨front, last, rfl, hfront, hlast⟩ := List.map_eq_append_iff.1 h
  obtain ⟨top, rfl, htop⟩ := List.map_eq_singleton_iff.1 hlast
  exact ⟨front, top, rfl, hfront, htop⟩

/-- Items that stand for a binary expression are those of its operands and one for its
operation. -/
lemma exists_items_binary {op : BinaryOp} {left right : Expression} {items : List α}
    (h : items.map tokenOf = (Expression.binary op left right).postorder.map Expression.token) :
    ∃ lefts rights top, items = lefts ++ rights ++ [top] ∧
      lefts.map tokenOf = left.postorder.map Expression.token ∧
      rights.map tokenOf = right.postorder.map Expression.token ∧
      tokenOf top = (Expression.binary op left right).token := by
  rw [Expression.postorder, List.map_append, List.map_append] at h
  obtain ⟨front, last, rfl, hfront, hlast⟩ := List.map_eq_append_iff.1 h
  obtain ⟨lefts, rights, rfl, hlefts, hrights⟩ := List.map_eq_append_iff.1 hfront
  obtain ⟨top, rfl, htop⟩ := List.map_eq_singleton_iff.1 hlast
  exact ⟨lefts, rights, top, rfl, hlefts, hrights, htop⟩

/-- The words of an expression with a value push the value. -/
lemma IsStandard.run_of_eval_eq_some (hv : v.IsStandard) {e : Expression} {x : ℚ}
    (hx : e.eval = some x) {items : List α}
    (hitems : items.map tokenOf = e.postorder.map Expression.token) (rest : List α)
    (s : Stack Value) :
    v.run tokenOf (items ++ rest) s = v.run tokenOf rest (s.push x) := by
  induction e generalizing x items rest s with
  | literal numeral =>
    obtain ⟨item, rfl, hitem⟩ := List.map_eq_singleton_iff.1 hitems
    obtain rfl : (numeral.value : ℚ) = x := Option.some.inj hx
    have hpush : v.dispatch (tokenOf item) s = Effect.quiet (s.push numeral.value) := by
      rw [hitem]
      rfl
    exact run_cons_of_quiet hpush rest
  | unary op operand ih =>
    obtain ⟨front, top, rfl, hfront, htop⟩ := exists_items_unary hitems
    obtain ⟨y, hy, rfl⟩ := Option.map_eq_some_iff.1 hx
    have happly : v.dispatch (tokenOf top) (s.push y) = Effect.quiet (s.push (op.result y)) := by
      rw [htop, dispatch_unary, hv.execute_unary]
    rw [List.append_assoc, ih hy hfront]
    exact run_cons_of_quiet happly rest
  | binary op left right ihleft ihright =>
    obtain ⟨lefts, rights, top, rfl, hlefts, hrights, htop⟩ := exists_items_binary hitems
    obtain ⟨y, hy, hbind⟩ := Option.bind_eq_some_iff.1 hx
    obtain ⟨z, hz, hresult⟩ := Option.bind_eq_some_iff.1 hbind
    have happly : v.dispatch (tokenOf top) ((s.push y).push z) = Effect.quiet (s.push x) := by
      rw [htop, dispatch_binary, hv.execute_binary hresult]
    rw [List.append_assoc, List.append_assoc, ihleft hy hlefts, ihright hz hrights]
    exact run_cons_of_quiet happly rest

/-- An operator without a result for the values of its operands stops the run, and the operands are
gone. -/
lemma IsStandard.run_of_result?_eq_none (hv : v.IsStandard) {op : BinaryOp}
    {left right : Expression} {x y : ℚ} (hleft : left.eval = some x) (hright : right.eval = some y)
    (hresult : op.result? x y = none) {lefts rights : List α} {top : α}
    (hlefts : lefts.map tokenOf = left.postorder.map Expression.token)
    (hrights : rights.map tokenOf = right.postorder.map Expression.token)
    (htop : tokenOf top = (Expression.binary op left right).token) (rest : List α)
    (s : Stack Value) :
    v.run tokenOf (lefts ++ rights ++ [top] ++ rest) s =
      ⟨s, "", some (top, .raise .divisionByZero)⟩ := by
  have hfails : v.dispatch (tokenOf top) ((s.push x).push y) =
      Effect.failure s (.raise .divisionByZero) := by
    rw [htop, dispatch_binary, hv.execute_binary_of_none hresult]
  have herror : (v.dispatch (tokenOf top) ((s.push x).push y)).error? =
      some (.raise .divisionByZero) := by
    rw [hfails]
    rfl
  rw [List.append_assoc, List.append_assoc, hv.run_of_eval_eq_some hleft hlefts,
    hv.run_of_eval_eq_some hright hrights, List.singleton_append, run_cons_of_error herror, hfails]
  rfl

/-- The words of an expression without a value stop at its first division by zero, with the values
of the waiting left operands on the stack. -/
lemma IsStandard.run_of_eval_eq_none (hv : v.IsStandard) {e : Expression} (he : e.eval = none)
    {items : List α} (hitems : items.map tokenOf = e.postorder.map Expression.token) :
    ∃ item values, items[e.firstZeroDivision]? = some item ∧
      (e.waiting e.firstZeroDivision).map Expression.eval = values.map some ∧
      ∀ (rest : List α) (s : Stack Value), v.run tokenOf (items ++ rest) s =
        ⟨s.pushAll values, "", some (item, .raise .divisionByZero)⟩ := by
  induction e generalizing items with
  | literal numeral => cases he
  | unary op operand ih =>
    obtain ⟨front, top, rfl, hfront, -⟩ := exists_items_unary hitems
    have hoperand : operand.eval = none := Option.map_eq_none_iff.1 he
    have hlt := Expression.firstZeroDivision_lt hoperand
    obtain ⟨item, values, hitem, hvalues, hrun⟩ := ih hoperand hfront
    rw [Expression.firstZeroDivision_unary hoperand]
    refine ⟨item, values, ?_, ?_, ?_⟩
    · have hbound := (List.getElem?_eq_some_iff.1 hitem).1
      rw [List.getElem?_append_left hbound]
      exact hitem
    · rw [Expression.waiting, if_pos hlt]
      exact hvalues
    · intro rest s
      rw [List.append_assoc]
      exact hrun _ s
  | binary op left right ihleft ihright =>
    obtain ⟨lefts, rights, top, rfl, hlefts, hrights, htop⟩ := exists_items_binary hitems
    have hlen : lefts.length = left.postorder.length := by
      simpa using congrArg List.length hlefts
    have hlen' : rights.length = right.postorder.length := by
      simpa using congrArg List.length hrights
    cases hleft : left.eval with
    | none =>
      -- the division by zero lies in the left operand, and nothing waits outside of it
      have hlt := Expression.firstZeroDivision_lt hleft
      obtain ⟨item, values, hitem, hvalues, hrun⟩ := ihleft hleft hlefts
      rw [Expression.firstZeroDivision_binary_of_left hleft]
      refine ⟨item, values, ?_, ?_, ?_⟩
      · rw [List.append_assoc, List.getElem?_append_left (by omega)]
        exact hitem
      · rw [Expression.waiting, if_pos hlt]
        exact hvalues
      · intro rest s
        rw [List.append_assoc, List.append_assoc]
        exact hrun _ s
    | some x =>
      cases hright : right.eval with
      | none =>
        -- the division by zero lies in the right operand, so the left operand waits below
        have hlt := Expression.firstZeroDivision_lt hright
        obtain ⟨item, values, hitem, hvalues, hrun⟩ := ihright hright hrights
        rw [Expression.firstZeroDivision_binary_of_right hleft hright]
        refine ⟨item, x :: values, ?_, ?_, ?_⟩
        · rw [List.append_assoc, List.getElem?_append_right (by omega),
            List.getElem?_append_left (by omega), hlen, Nat.add_sub_cancel_left]
          exact hitem
        · rw [Expression.waiting, if_neg (by omega), if_pos (by omega), Nat.add_sub_cancel_left,
            List.map_cons, List.map_cons, hvalues, hleft]
        · intro rest s
          rw [List.append_assoc, List.append_assoc, hv.run_of_eval_eq_some hleft hlefts]
          exact hrun _ (s.push x)
      | some y =>
        -- both operands have values, so it is the operator itself that fails
        have hresult : op.result? x y = none := by
          simpa [Expression.eval, hleft, hright] using he
        rw [Expression.firstZeroDivision_binary_of_operator hleft hright hresult]
        refine ⟨top, [], ?_, ?_, ?_⟩
        · rw [List.getElem?_append_right (by simp [hlen, hlen'])]
          simp [hlen, hlen']
        · rw [Expression.waiting, if_neg (by omega), if_neg (by omega)]
          rfl
        · intro rest s
          exact hv.run_of_result?_eq_none hleft hright hresult hlefts hrights htop rest s

end Vocabulary

/-! ## Lines that list an expression -/

namespace Layout

/-- The line lists the words of an expression in postorder, with its letters in any case. -/
def Lists (layout : Layout) (e : Expression) : Prop :=
  (layout.words.map fun word => word.map Char.toLower) = e.words

/-- The lexemes of a line that lists an expression stand for the words of the expression. -/
lemma Lists.map_token {layout : Layout} {e : Expression} (h : layout.Lists e) :
    layout.lexemes.map Lexeme.token = e.postorder.map Expression.token := by
  have hclassify : ∀ (texts : List String) (nodes : List Expression),
      (texts.map fun text => text.map Char.toLower) = nodes.map Expression.word →
        texts.map Token.classify = nodes.map Expression.token := by
    intro texts
    induction texts with
    | nil =>
      intro nodes hnodes
      obtain rfl : nodes = [] := by simpa using hnodes.symm
      rfl
    | cons text texts ih =>
      intro nodes hnodes
      cases nodes with
      | nil => cases hnodes
      | cons node nodes =>
        obtain ⟨hhead, htail⟩ := List.cons.inj hnodes
        rw [List.map_cons, List.map_cons, Expression.classify_of_map_toLower_eq_word hhead,
          ih nodes htail]
  have hsources : layout.lexemes.map Lexeme.token = layout.words.map Token.classify := by
    rw [← map_source_lexemes, List.map_map]
    rfl
  rw [hsources]
  exact hclassify layout.words e.postorder h

/-- A division by zero is written as a slash in the line. -/
lemma Lists.source_eq_slash {layout : Layout} {e : Expression} (h : layout.Lists e) {k : Nat}
    {node : Expression} (hnode : e.postorder[k]? = some node) (hzero : node.dividesByZero = true)
    {lexeme : Lexeme} (hlexeme : layout.lexemes[k]? = some lexeme) : lexeme.source = "/" := by
  have hword : node.word = "/" := by
    cases node with
    | literal numeral => cases hzero
    | unary op operand => cases hzero
    | binary op left right =>
      cases op with
      | sum => cases hzero
      | difference => cases hzero
      | product => cases hzero
      | quotient => rfl
  have hsource : layout.words[k]? = some lexeme.source := by
    rw [← map_source_lexemes, List.getElem?_map, hlexeme, Option.map_some]
  have hlower : lexeme.source.map Char.toLower = node.word := by
    have hk := congrArg (fun texts => texts[k]?) h
    simp only [List.getElem?_map, hsource, Expression.words, hnode, Option.map_some] at hk
    exact Option.some.inj hk
  have hslash : ∀ c ∈ "/".toList, c.isAlpha = false := by
    intro c hc
    obtain rfl : c = '/' := by simpa using hc
    decide
  rw [hword, string_map_toLower_eq_iff hslash] at hlower
  exact hlower

end Layout

namespace Session

/-- A line that lists an expression in postorder computes the expression, whatever lies on the
stack and in whichever state the session is.  When the expression has a value, the value is pushed.
When it has none, the line stops at the slash of the first division in postorder whose divisor is
zero, and of the expression only the values of the waiting left operands are on the stack. -/
theorem executeLine_postorder (session : Session) (hstandard : session.vocabulary.IsStandard)
    (e : Expression) (layout : Layout) (hlists : layout.Lists e) :
    (∀ x, e.eval = some x →
      session.executeLine layout.text =
        ("ok",
          { session with
            stack := .ofList (session.stack.toList ++ [x])
            output := "ok"
            lastError? := none })) ∧
    (e.eval = none →
      ∃ k node lexeme values,
        e.postorder[k]? = some node ∧ node.dividesByZero = true ∧
        (∀ i other, i < k → e.postorder[i]? = some other → other.dividesByZero = false) ∧
        layout.lexemes[k]? = some lexeme ∧
        (e.waiting k).map Expression.eval = values.map some ∧
        session.executeLine layout.text =
          ("Division by zero",
            { session with
              stack := .ofList (session.stack.toList ++ values)
              output := "Division by zero"
              lastError? := some ⟨.divisionByZero, lexeme.column, "/"⟩ })) := by
  have htokens := hlists.map_token
  constructor
  · intro x hx
    have hrun : session.runLine layout.text = ⟨session.stack.push x, "", none⟩ := by
      have hitems := hstandard.run_of_eval_eq_some hx htokens [] session.stack
      rw [List.append_nil] at hitems
      rw [runLine, layout.ofLine_text, hitems]
      rfl
    have hstop : (session.runLine layout.text).stop? = none := by rw [hrun]
    have hstack : session.stack.push x = .ofList (session.stack.toList ++ [x]) := by
      rw [← Stack.toList_inj]
      simp
    simp [executeLine, enter_of_none hstop, hrun, okText, hstack]
  · intro hnone
    obtain ⟨node, hnode, hzero, hfirst⟩ := Expression.firstZeroDivision_spec hnone
    obtain ⟨lexeme, values, hlexeme, hvalues, hitems⟩ :=
      hstandard.run_of_eval_eq_none hnone htokens
    have hrun : session.runLine layout.text =
        ⟨session.stack.pushAll values, "", some (lexeme, .raise .divisionByZero)⟩ := by
      have hwhole := hitems [] session.stack
      rw [List.append_nil] at hwhole
      rw [runLine, layout.ofLine_text, hwhole]
    have hstop : (session.runLine layout.text).stop? =
        some (lexeme, .raise .divisionByZero) := by rw [hrun]
    have hstack : session.stack.pushAll values = .ofList (session.stack.toList ++ values) := by
      rw [← Stack.toList_inj]
      simp
    have hsource := hlists.source_eq_slash hnode hzero hlexeme
    have herror : diagnose lexeme (.raise .divisionByZero) =
        ⟨.divisionByZero, lexeme.column, "/"⟩ := by
      rw [← hsource]
      rfl
    refine ⟨e.firstZeroDivision, node, lexeme, values, hnode, hzero, hfirst, hlexeme, hvalues, ?_⟩
    simp [executeLine, enter_of_stop hstop, hrun, hstack, herror, Fault.message]

/-- Signs, zeros in front, capital letters and wide blanks are all within the form of a line.  The
first line here leaves minus one third.  The second one divides five by zero at its fifth word, when
seven waits for the addition. -/
theorem executeLine_postorder_third_and_zero :
    let third : Expression :=
      .unary .negate (.binary .quotient (.literal ⟨none, [1], by decide⟩)
        (.literal ⟨some .plus, [0, 3], by decide⟩))
    let undefined : Expression :=
      .binary .sum (.literal ⟨none, [7], by decide⟩)
        (.binary .quotient (.literal ⟨none, [0, 5], by decide⟩)
          (.unary .magnitude (.literal ⟨some .minus, [0], by decide⟩)))
    Vocabulary.standard.IsStandard ∧
    (∃ layout : Layout, layout.text = "\t1 +03\u3000/ Negate " ∧ layout.Lists third ∧
      third.eval = some (-1 / 3) ∧
      executeLine {} layout.text = ("ok", { stack := .ofList [-1 / 3], output := "ok" })) ∧
    ∃ layout : Layout, layout.text = "7 05 -0 ABS / +" ∧ layout.Lists undefined ∧
      undefined.eval = none ∧ undefined.waiting 4 = [.literal ⟨none, [7], by decide⟩] ∧
      executeLine {} layout.text =
        ("Division by zero",
          { stack := .ofList [7]
            output := "Division by zero"
            lastError? := some ⟨.divisionByZero, ⟨12, 13⟩, "/"⟩ }) := by
  intro third undefined
  have hstandard := Vocabulary.isStandard_standard
  refine ⟨hstandard, ?_, ?_⟩
  · obtain ⟨layout, htext⟩ := Layout.exists_text_eq "\t1 +03\u3000/ Negate "
    have hlists : layout.Lists third := by
      rw [Layout.Lists, layout.words_eq, htext]
      cbv
    have hvalue : third.eval = some (-1 / 3) := by cbv
    exact ⟨layout, htext, hlists, hvalue,
      (executeLine_postorder {} hstandard third layout hlists).1 _ hvalue⟩
  · obtain ⟨layout, htext⟩ := Layout.exists_text_eq "7 05 -0 ABS / +"
    have hlists : layout.Lists undefined := by
      rw [Layout.Lists, layout.words_eq, htext]
      cbv
    have hnone : undefined.eval = none := by cbv
    obtain ⟨k, node, lexeme, values, hnode, hzero, hfirst, hlexeme, hvalues, hrun⟩ :=
      (executeLine_postorder {} hstandard undefined layout hlists).2 hnone
    have hk : k = 4 := by
      obtain hlt | rfl | hgt := Nat.lt_trichotomy k 4
      · -- the words in front of the slash are no divisions
        interval_cases k <;> cases hnode <;> cases hzero
      · rfl
      · have hslash := hfirst 4 _ hgt rfl
        exact absurd hslash (by cbv; decide)
    subst hk
    have hplace : lexeme = ⟨12, ['/']⟩ := by
      have hwords : (Lexeme.ofLine "7 05 -0 ABS / +")[4]? = some ⟨12, ['/']⟩ := by decide
      rw [← layout.ofLine_text, htext, hwords] at hlexeme
      exact (Option.some.inj hlexeme).symm
    have hseven : values = [7] := by
      have hmap : values.map some = [some 7] := hvalues.symm.trans (by cbv)
      simpa [List.map_eq_cons_iff] using hmap
    refine ⟨layout, htext, hlists, hnone, rfl, ?_⟩
    rw [hrun, hplace, hseven]
    rfl

end Session

end StackLang
