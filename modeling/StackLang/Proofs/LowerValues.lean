import Mathlib
import StackLang.Proofs.CarryOver
import StackLang.Proofs.StackEffects

/-!
# Values below the operands

A word takes its operands from the top of the stack and leaves the values below them alone.  Three
words are exceptions: `depth` and `.s` show how many values there are, and `clear` removes them all
(`Opcode.seesWholeStack`).  Without these three, more values at the bottom of the stack change
neither where a run of tokens ends nor what it prints, as long as the run does not want for values
(`Session.runTokens_above`).
-/

namespace StackLang

namespace Opcode

/-- Whether what a word does depends on the whole stack, not only on its operands. -/
def seesWholeStack : Opcode → Bool
  | .depth | .dotS | .clear => true
  | _ => false

variable {op : Opcode} {known : List String}

/-- A word performs in the same way with more values at the bottom of the stack. -/
lemma Performs.append_left (hop : op.seesWholeStack = false) (bottom : List ℚ)
    {before after : List ℚ} {text : String} (h : op.Performs known before after text) :
    op.Performs known (bottom ++ before) (bottom ++ after) text := by
  cases h with
  | plus lower b a => simpa only [List.append_assoc] using plus (bottom ++ lower) b a
  | minus lower b a => simpa only [List.append_assoc] using minus (bottom ++ lower) b a
  | star lower b a => simpa only [List.append_assoc] using star (bottom ++ lower) b a
  | slash lower b a ha => simpa only [List.append_assoc] using slash (bottom ++ lower) b a ha
  | negate lower a => simpa only [List.append_assoc] using negate (bottom ++ lower) a
  | abs lower a => simpa only [List.append_assoc] using abs (bottom ++ lower) a
  | dot _ a => simpa only [List.append_assoc] using dot (bottom ++ after) a
  | words all => exact words (bottom ++ before)
  | dup lower a => simpa only [List.append_assoc] using dup (bottom ++ lower) a
  | drop _ a => simpa only [List.append_assoc] using drop (bottom ++ after) a
  | swap lower a b => simpa only [List.append_assoc] using swap (bottom ++ lower) a b
  | «over» lower a b => simpa only [List.append_assoc] using Performs.over (bottom ++ lower) a b
  | rot lower a b c => simpa only [List.append_assoc] using rot (bottom ++ lower) a b c
  | dotS all => cases hop
  | depth all => cases hop
  | clear all => cases hop

end Opcode

/-- The second stack has the given values at the bottom and those of the first one above them. -/
def Stack.LiesAbove (bottom : List ℚ) (upper whole : Stack Value) : Prop :=
  whole.toList = bottom ++ upper.toList

namespace Vocabulary

variable {v w : Vocabulary} {bottom : List ℚ} {upper whole : Stack Value}

/-- An opcode that looks at its operands only does the same with more values at the bottom of the
stack, unless it wants for values. -/
lemma IsStandard.alike_execute (hv : v.IsStandard) (hw : w.IsStandard) {op : Opcode}
    (hop : op.seesWholeStack = false) (hstack : Stack.LiesAbove bottom upper whole)
    (hunderflow : (v.execute op upper).error? ≠ some (.raise .stackUnderflow)) :
    Effect.Alike (Stack.LiesAbove bottom) (v.execute op upper) (w.execute op whole) := by
  have hspellings : w.spellings = v.spellings :=
    spellings_congr fun op' => (hw op').trans (hv op').symm
  rw [hv.execute_eq] at hunderflow ⊢
  rw [hw.execute_eq]
  rcases op.performs_or_fails v.spellings upper with
    ⟨after, text, hperforms⟩ | hlt | ⟨rfl, lower, b, hupper⟩
  · have hwhole := hperforms.append_left hop bottom
    rw [← hstack, ← hspellings] at hwhole
    rw [hperforms.effect_eq, hwhole.effect_eq]
    exact ⟨rfl, rfl, by simp [Stack.LiesAbove]⟩
  · exact absurd (congrArg Effect.error? (Opcode.effect_of_size_lt hlt v)) hunderflow
  · have hwhole : whole.toList = bottom ++ lower ++ [b, 0] := by
      rw [hstack, hupper, List.append_assoc]
    rw [Opcode.effect_slash_of_zero hupper, Opcode.effect_slash_of_zero hwhole]
    exact ⟨rfl, rfl, by simp [Stack.LiesAbove, Effect.failure]⟩

/-- The same for tokens. -/
lemma IsStandard.alike_dispatch (hv : v.IsStandard) (hw : w.IsStandard) {token : Token}
    (htoken : token.opcode?.any Opcode.seesWholeStack = false)
    (hstack : Stack.LiesAbove bottom upper whole)
    (hunderflow : (v.dispatch token upper).error? ≠ some (.raise .stackUnderflow)) :
    Effect.Alike (Stack.LiesAbove bottom) (v.dispatch token upper) (w.dispatch token whole) := by
  cases token with
  | number value =>
    refine ⟨rfl, rfl, ?_⟩
    show (whole.push value).toList = bottom ++ (upper.push value).toList
    rw [Stack.toList_push, Stack.toList_push, hstack, List.append_assoc]
  | unknown text => exact ⟨rfl, rfl, hstack⟩
  | operator op => exact hv.alike_execute hw htoken hstack hunderflow
  | word op => exact hv.alike_execute hw htoken hstack hunderflow

end Vocabulary

namespace Session

/-- Values below the operands do not matter.  Let tokens of which none looks at the whole stack be
run in a standard vocabulary, and let the run succeed or stop at a division by zero or at an
undefined word.  With more values at the bottom of the stack it prints the same text and ends in
the same way at the same position, with these values still at the bottom of the same final stack. -/
theorem runTokens_above (session deeper : Session) (bottom : List ℚ) (tokens : List Token)
    (hstandard : session.vocabulary.IsStandard) (hdeeper : deeper.vocabulary.IsStandard)
    (hstack : deeper.stack.toList = bottom ++ session.stack.toList)
    (htokens : ∀ token ∈ tokens, token.opcode?.any Opcode.seesWholeStack = false)
    (hends : ∀ i d, (session.runTokens tokens).1 = some (i, d) →
      d.fault = .divisionByZero ∨ d.fault = .undefinedWord) :
    (deeper.runTokens tokens).1 = (session.runTokens tokens).1 ∧
      (deeper.runTokens tokens).2.stack.toList =
        bottom ++ (session.runTokens tokens).2.stack.toList ∧
      ∃ printed, (session.runTokens tokens).2.output = session.output ++ printed ∧
        (deeper.runTokens tokens).2.output = deeper.output ++ printed := by
  have halike : ∀ token ∈ tokens, ∀ upper whole, Stack.LiesAbove bottom upper whole →
      (∀ d, (session.vocabulary.dispatch token upper).error? = some d →
        d.fault = .divisionByZero ∨ d.fault = .undefinedWord) →
        Effect.Alike (Stack.LiesAbove bottom) (session.vocabulary.dispatch token upper)
          (deeper.vocabulary.dispatch (id token) whole) := by
    intro token htoken upper whole habove hfaults
    refine hstandard.alike_dispatch hdeeper (htokens token htoken) habove fun hunderflow => ?_
    rcases hfaults _ hunderflow with hfault | hfault <;> cases hfault
  have hrun := runTokens_related session deeper id halike hends hstack
  rwa [List.map_id] at hrun

/-- The division by zero is met in the same place above two more values, and nothing but these two
is left. -/
theorem runTokens_above_zero_divisor :
    Vocabulary.standard.IsStandard ∧
      (∀ token ∈ [Token.word .over, .operator .dot, .operator .slash, .word .words],
        token.opcode?.any Opcode.seesWholeStack = false) ∧
      (runTokens { stack := .ofList [6, 0] }
        [.word .over, .operator .dot, .operator .slash, .word .words]).1 =
          some (2, .raise .divisionByZero) ∧
      (runTokens { stack := .ofList [7, 2, 6, 0], output := "ok" }
        [.word .over, .operator .dot, .operator .slash, .word .words]).1 =
          some (2, .raise .divisionByZero) ∧
      (runTokens { stack := .ofList [7, 2, 6, 0], output := "ok" }
        [.word .over, .operator .dot, .operator .slash, .word .words]).2.stack.toList = [7, 2] ∧
      (runTokens { stack := .ofList [7, 2, 6, 0], output := "ok" }
        [.word .over, .operator .dot, .operator .slash, .word .words]).2.output = "ok6 " := by
  have hshallow : runTokens { stack := .ofList [6, 0] }
      [.word .over, .operator .dot, .operator .slash, .word .words] =
        (some (2, .raise .divisionByZero), { output := "6 " }) := by cbv
  have htokens : ∀ token ∈ [Token.word .over, .operator .dot, .operator .slash, .word .words],
      token.opcode?.any Opcode.seesWholeStack = false := by decide
  have hstandard := Vocabulary.isStandard_standard
  obtain ⟨hstop, hlast, printed, hprinted, houtput⟩ :=
    runTokens_above { stack := .ofList [6, 0] } { stack := .ofList [7, 2, 6, 0], output := "ok" }
      [7, 2] [.word .over, .operator .dot, .operator .slash, .word .words] hstandard hstandard rfl
      htokens (by rw [hshallow]; rintro i d ⟨⟩; exact Or.inl rfl)
  rw [hshallow] at hstop hlast hprinted
  obtain rfl : "6 " = printed := by simpa using hprinted
  exact ⟨hstandard, htokens, by rw [hshallow], hstop, hlast, houtput⟩

end Session

end StackLang
