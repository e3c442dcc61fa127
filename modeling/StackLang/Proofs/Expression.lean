import Mathlib
import StackLang.Arithmetic
import StackLang.Proofs.LetterCase
import StackLang.Proofs.Layout

/-!
# Arithmetic expressions

Expression trees over integer numerals, their exact value, and the words that list them in
postorder.  Nothing here mentions a stack: the value of an expression is a rational number, and it
has none when a division by zero is met.  `Expression.firstZeroDivision` is the position in
postorder of the first division that has no value, and `Expression.waiting` are the left operands
whose operators are still to come at a position.
-/

namespace StackLang

open Text

/-! ## Numerals -/

/-- The sign in front of a numeral. -/
inductive Sign where
  | plus
  | minus
  deriving DecidableEq

/-- An integer in decimal digits, possibly with a sign and with zeros in front. -/
structure Numeral where
  sign? : Option Sign
  digits : List (Fin 10)
  digits_ne_nil : digits ≠ []

namespace Numeral

/-- The number that the digits write, the most significant one first. -/
def magnitude (numeral : Numeral) : Nat :=
  numeral.digits.foldl (fun value digit => 10 * value + digit.val) 0

/-- The integer that the numeral writes. -/
def value (numeral : Numeral) : Int :=
  match numeral.sign? with
  | some .minus => -(numeral.magnitude : Int)
  | some .plus => numeral.magnitude
  | none => numeral.magnitude

/-- The digits as characters. -/
def digitCharacters (numeral : Numeral) : List Char :=
  numeral.digits.map fun digit => digit.val.digitChar

/-- The characters of the numeral. -/
def characters (numeral : Numeral) : List Char :=
  match numeral.sign? with
  | some .minus => '-' :: numeral.digitCharacters
  | some .plus => '+' :: numeral.digitCharacters
  | none => numeral.digitCharacters

/-- The text of the numeral. -/
def text (numeral : Numeral) : String := String.ofList numeral.characters

/-- The characters of digits are digits. -/
lemma isDigit_of_mem_digitCharacters {numeral : Numeral} {c : Char}
    (hc : c ∈ numeral.digitCharacters) : c.isDigit = true := by
  obtain ⟨digit, -, rfl⟩ := List.mem_map.1 hc
  rw [Nat.isDigit_digitChar]
  exact decide_eq_true digit.isLt

/-- The characters of digits read as the number that the digits write. -/
lemma readNat?_digitCharacters (numeral : Numeral) :
    Decimal.readNat? numeral.digitCharacters = some numeral.magnitude := by
  have hne : numeral.digitCharacters ≠ [] := by
    simpa [digitCharacters] using numeral.digits_ne_nil
  have hall : numeral.digitCharacters.all Char.isDigit = true :=
    List.all_eq_true.2 fun c hc => isDigit_of_mem_digitCharacters hc
  have hvalue : ∀ (digits : List (Fin 10)) (start : Nat),
      Nat.ofDigitChars 10 (digits.map fun digit => digit.val.digitChar) start =
        digits.foldl (fun value digit => 10 * value + digit.val) start := by
    intro digits
    induction digits with
    | nil => simp
    | cons digit digits ih =>
      intro start
      rw [List.map_cons, Nat.ofDigitChars_cons_digitChar_of_lt_ten digit.isLt, ih,
        List.foldl_cons]
  rw [Decimal.readNat?, if_pos ⟨hne, hall⟩, digitCharacters, hvalue]
  rfl

/-- The text of a numeral reads as the integer that the numeral writes. -/
lemma readInt?_characters (numeral : Numeral) :
    Decimal.readInt? numeral.characters = some numeral.value := by
  have hhead : ∀ sign : Char, sign.isDigit = false →
      numeral.digitCharacters.head? ≠ some sign := by
    intro sign hsign hsome
    rw [isDigit_of_mem_digitCharacters (List.mem_of_head? hsome)] at hsign
    cases hsign
  cases hsign : numeral.sign? with
  | none =>
    rw [characters, value, hsign]
    rw [Decimal.readInt?_of_head_ne (hhead '-' (by decide)) (hhead '+' (by decide)),
      readNat?_digitCharacters]
    rfl
  | some sign =>
    cases sign with
    | plus =>
      rw [characters, value, hsign]
      rw [Decimal.readInt?_plus, readNat?_digitCharacters]
      rfl
    | minus =>
      rw [characters, value, hsign]
      rw [Decimal.readInt?_minus, readNat?_digitCharacters]
      rfl

end Numeral

/-! ## Expressions and their values -/

/-- The exact result of a unary operation. -/
def UnaryOp.result : UnaryOp → ℚ → ℚ
  | .negate, x => -x
  | .magnitude, x => |x|

/-- The exact result of a binary operation, which a quotient by zero does not have. -/
def BinaryOp.result? : BinaryOp → ℚ → ℚ → Option ℚ
  | .sum, x, y => some (x + y)
  | .difference, x, y => some (x - y)
  | .product, x, y => some (x * y)
  | .quotient, x, y => if y = 0 then none else some (x / y)

/-- An arithmetic expression. -/
inductive Expression where
  | literal (numeral : Numeral)
  | unary (op : UnaryOp) (operand : Expression)
  | binary (op : BinaryOp) (left right : Expression)

namespace Expression

/-- The exact value of an expression, which it has when no divisor in it is zero. -/
def eval : Expression → Option ℚ
  | literal numeral => some numeral.value
  | unary op operand => operand.eval.map op.result
  | binary op left right => left.eval.bind fun x => right.eval.bind fun y => op.result? x y

/-- The subexpressions of an expression in postorder: left operand, right operand, operator. -/
def postorder : Expression → List Expression
  | literal numeral => [literal numeral]
  | unary op operand => operand.postorder ++ [unary op operand]
  | binary op left right => left.postorder ++ right.postorder ++ [binary op left right]

/-- The word that stands for the topmost part of an expression. -/
def word : Expression → String
  | literal numeral => numeral.text
  | unary .negate _ => "negate"
  | unary .magnitude _ => "abs"
  | binary .sum _ _ => "+"
  | binary .difference _ _ => "-"
  | binary .product _ _ => "*"
  | binary .quotient _ _ => "/"

/-- The words of an expression in postorder. -/
def words (e : Expression) : List String := e.postorder.map word

/-- A division whose divisor has the value zero. -/
def dividesByZero : Expression → Bool
  | binary .quotient _ right => right.eval = some 0
  | _ => false

/-- The position in postorder of the first division by zero. -/
def firstZeroDivision (e : Expression) : Nat := e.postorder.findIdx dividesByZero

/-- The left operands that are complete before position `k` of the postorder and whose operators
stand behind it, outermost first.  The operands of the operator at `k` itself are not among them. -/
def waiting : Expression → Nat → List Expression
  | literal _, _ => []
  | unary _ operand, k => if k < operand.postorder.length then operand.waiting k else []
  | binary _ left right, k =>
    if k < left.postorder.length then left.waiting k
    else if k < left.postorder.length + right.postorder.length then
      left :: right.waiting (k - left.postorder.length)
    else []

/-- An operation has no result exactly when it is a quotient by zero. -/
lemma result?_eq_none_iff {op : BinaryOp} {x y : ℚ} :
    op.result? x y = none ↔ op = .quotient ∧ y = 0 := by
  cases op with
  | sum => simp [BinaryOp.result?]
  | difference => simp [BinaryOp.result?]
  | product => simp [BinaryOp.result?]
  | quotient => simp [BinaryOp.result?]

/-- A binary expression divides by zero when its operator has no result for its operands. -/
lemma dividesByZero_binary {op : BinaryOp} (left : Expression) {right : Expression} {x y : ℚ}
    (hright : right.eval = some y) :
    (binary op left right).dividesByZero = true ↔ op.result? x y = none := by
  rw [result?_eq_none_iff]
  cases op with
  | sum => simp [dividesByZero]
  | difference => simp [dividesByZero]
  | product => simp [dividesByZero]
  | quotient => simp [dividesByZero, hright]

/-- An expression has no value exactly when some division in it is by zero. -/
lemma eval_eq_none_iff (e : Expression) :
    e.eval = none ↔ ∃ node ∈ e.postorder, node.dividesByZero = true := by
  induction e with
  | literal numeral => simp [eval, postorder, dividesByZero]
  | unary op operand ih =>
    have htop : (unary op operand).dividesByZero = false := rfl
    simp only [eval, postorder, Option.map_eq_none_iff, ih, List.mem_append, List.mem_singleton]
    constructor
    · rintro ⟨node, hnode, hzero⟩
      exact ⟨node, Or.inl hnode, hzero⟩
    · rintro ⟨node, hnode | rfl, hzero⟩
      · exact ⟨node, hnode, hzero⟩
      · rw [htop] at hzero
        cases hzero
  | binary op left right ihleft ihright =>
    simp only [eval, postorder, List.mem_append, List.mem_singleton]
    cases hleft : left.eval with
    | none =>
      obtain ⟨node, hnode, hzero⟩ := ihleft.1 hleft
      simp only [Option.bind_none, true_iff]
      exact ⟨node, Or.inl (Or.inl hnode), hzero⟩
    | some x =>
      cases hright : right.eval with
      | none =>
        obtain ⟨node, hnode, hzero⟩ := ihright.1 hright
        simp only [Option.bind_some, Option.bind_none, true_iff]
        exact ⟨node, Or.inl (Or.inr hnode), hzero⟩
      | some y =>
        simp only [Option.bind_some]
        rw [← dividesByZero_binary left hright]
        constructor
        · intro hzero
          exact ⟨_, Or.inr rfl, hzero⟩
        · -- a division by zero inside an operand would have left the operand without a value
          rintro ⟨node, (hnode | hnode) | rfl, hzero⟩
          · rw [ihleft.2 ⟨node, hnode, hzero⟩] at hleft
            cases hleft
          · rw [ihright.2 ⟨node, hnode, hzero⟩] at hright
            cases hright
          · exact hzero

/-! ## The first division by zero -/

/-- An expression without a value has a first division by zero. -/
lemma firstZeroDivision_lt {e : Expression} (h : e.eval = none) :
    e.firstZeroDivision < e.postorder.length :=
  List.findIdx_lt_length.2 (e.eval_eq_none_iff.1 h)

/-- In an expression with a value the search for a division by zero runs to the end. -/
lemma firstZeroDivision_eq_length {e : Expression} {x : ℚ} (h : e.eval = some x) :
    e.firstZeroDivision = e.postorder.length := by
  refine List.findIdx_eq_length.2 fun node hnode => ?_
  by_contra hzero
  rw [e.eval_eq_none_iff.2 ⟨node, hnode, by simpa using hzero⟩] at h
  cases h

/-- The first division by zero is one, and there is none in front of it. -/
lemma firstZeroDivision_spec {e : Expression} (h : e.eval = none) :
    ∃ node, e.postorder[e.firstZeroDivision]? = some node ∧ node.dividesByZero = true ∧
      ∀ i other, i < e.firstZeroDivision → e.postorder[i]? = some other →
        other.dividesByZero = false := by
  have hlt := firstZeroDivision_lt h
  refine ⟨e.postorder[e.firstZeroDivision], List.getElem?_eq_getElem hlt, ?_, ?_⟩
  · exact List.findIdx_getElem
  · intro i other hi hother
    obtain ⟨hbound, rfl⟩ := List.getElem?_eq_some_iff.1 hother
    simpa using List.not_of_lt_findIdx hi

/-- A unary operation does not move the first division by zero of its operand. -/
lemma firstZeroDivision_unary {op : UnaryOp} {operand : Expression} (h : operand.eval = none) :
    (unary op operand).firstZeroDivision = operand.firstZeroDivision := by
  have hlt := firstZeroDivision_lt h
  rw [firstZeroDivision, postorder, List.findIdx_append]
  exact if_pos hlt

/-- A division by zero in the left operand comes first. -/
lemma firstZeroDivision_binary_of_left {op : BinaryOp} {left right : Expression}
    (h : left.eval = none) :
    (binary op left right).firstZeroDivision = left.firstZeroDivision := by
  have hlt := firstZeroDivision_lt h
  rw [firstZeroDivision, postorder, List.append_assoc, List.findIdx_append]
  exact if_pos hlt

/-- Behind a left operand with a value, the search goes on in the right operand. -/
lemma firstZeroDivision_binary_of_right {op : BinaryOp} {left right : Expression} {x : ℚ}
    (hleft : left.eval = some x) (hright : right.eval = none) :
    (binary op left right).firstZeroDivision =
      left.postorder.length + right.firstZeroDivision := by
  have hlen := firstZeroDivision_eq_length hleft
  have hlt := firstZeroDivision_lt hright
  rw [firstZeroDivision] at hlen hlt
  rw [firstZeroDivision, postorder, List.append_assoc, List.findIdx_append,
    if_neg (by omega), List.findIdx_append, if_pos hlt, Nat.add_comm]
  rfl

/-- When both operands have values, only the operator itself can divide by zero. -/
lemma firstZeroDivision_binary_of_operator {op : BinaryOp} {left right : Expression} {x y : ℚ}
    (hleft : left.eval = some x) (hright : right.eval = some y)
    (h : op.result? x y = none) :
    (binary op left right).firstZeroDivision =
      left.postorder.length + right.postorder.length := by
  have hlen := firstZeroDivision_eq_length hleft
  have hlen' := firstZeroDivision_eq_length hright
  have hzero := (dividesByZero_binary left hright).2 h
  rw [firstZeroDivision] at hlen hlen'
  rw [firstZeroDivision, postorder, List.append_assoc, List.findIdx_append,
    if_neg (by omega), List.findIdx_append, if_neg (by omega), List.findIdx_cons, hzero]
  simp only [cond_true]
  omega

/-! ## What the words stand for -/

/-- The token of the word of an expression. -/
def token : Expression → Token
  | literal numeral => .number numeral.value
  | unary .negate _ => .word .negate
  | unary .magnitude _ => .word .abs
  | binary .sum _ _ => .operator .plus
  | binary .difference _ _ => .operator .minus
  | binary .product _ _ => .operator .star
  | binary .quotient _ _ => .operator .slash

/-- No word of an expression is unknown. -/
lemma kind_token_ne_unknown (e : Expression) : e.token.kind ≠ .unknown := by
  cases e with
  | literal numeral => simp [token, Token.kind]
  | unary op operand => cases op <;> simp [token, Token.kind]
  | binary op left right => cases op <;> simp [token, Token.kind]

/-- The words of an expression stand for its numbers and operations. -/
lemma classify_word (e : Expression) : Token.classify e.word = e.token := by
  cases e with
  | literal numeral =>
    have hread : Decimal.readInt? numeral.text.toList = some numeral.value := by
      rw [Numeral.text, String.toList_ofList, numeral.readInt?_characters]
    rw [Token.classify_eq, Classifier.number]
    simp only [word, hread, Option.map_some]
    rfl
  | unary op operand =>
    have hnegate : Token.classify "negate" = .word .negate := by cbv
    have habs : Token.classify "abs" = .word .abs := by cbv
    cases op with
    | negate => exact hnegate
    | magnitude => exact habs
  | binary op left right =>
    have hsymbols : Token.classify "+" = .operator .plus ∧ Token.classify "-" = .operator .minus ∧
        Token.classify "*" = .operator .star ∧ Token.classify "/" = .operator .slash := by
      decide
    cases op with
    | sum => exact hsymbols.1
    | difference => exact hsymbols.2.1
    | product => exact hsymbols.2.2.1
    | quotient => exact hsymbols.2.2.2

/-- The words of an expression stand for the same in capital and in small letters. -/
lemma classify_of_map_toLower_eq_word {e : Expression} {text : String}
    (h : text.map Char.toLower = e.word) : Token.classify text = e.token := by
  refine Token.classify_of_map_toLower ?_ e.kind_token_ne_unknown
  rw [h, e.classify_word]

end Expression

end StackLang
