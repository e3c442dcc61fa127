import Mathlib
import StackLang.Proofs.CarryOver
import StackLang.Proofs.StackEffects

/-!
# Words that move values without looking at them

The words `dup`, `drop`, `swap`, `over`, `rot` and `clear` move, copy and remove values and never
look at them (`Opcode.isShuffle`).  So it makes no difference whether the values of a stack are
replaced by their images under a function before a run of such words or after it
(`Session.runTokens_map`).

That a run of them brings no new value onto the stack needs no second induction: a function that
changes exactly the values that are not on the stack leaves the stack as it is, so it leaves the
final stack as it is.
-/

namespace StackLang

namespace Opcode

/-- Whether a word only moves, copies or removes values. -/
def isShuffle : Opcode → Bool
  | .dup | .drop | .swap | .over | .rot | .clear => true
  | _ => false

variable {op : Opcode} {known : List String} {before after : List ℚ} {text : String}

/-- A shuffle prints nothing. -/
lemma Performs.text_eq_empty (hop : op.isShuffle = true) (h : op.Performs known before after text) :
    text = "" := by
  cases h with
  | dot => cases hop
  | dotS => cases hop
  | words => cases hop
  | _ => rfl

/-- A shuffle does to the images of values what it does to the values. -/
lemma Performs.map (hop : op.isShuffle = true) (f : ℚ → ℚ)
    (h : op.Performs known before after text) :
    op.Performs known (before.map f) (after.map f) text := by
  cases h with
  | dup lower a => simpa using dup (lower.map f) (f a)
  | drop lower a => simpa using drop (after.map f) (f a)
  | swap lower a b => simpa using swap (lower.map f) (f a) (f b)
  | «over» lower a b => simpa using Performs.over (lower.map f) (f a) (f b)
  | rot lower a b c => simpa using rot (lower.map f) (f a) (f b) (f c)
  | clear all => exact clear (before.map f)
  | _ => cases hop

end Opcode

namespace Stack

variable {α β : Type*}

/-- The images of values are as many as the values. -/
@[simp] lemma size_map (f : α → β) (s : Stack α) : (s.map f).size = s.size := by
  simp [size, map]

/-- The image of the stack with given items is the stack with their images. -/
lemma map_ofList (f : α → β) (items : List α) : (ofList items).map f = ofList (items.map f) := by
  rw [← toList_inj]
  simp

end Stack

namespace Vocabulary

variable {v w : Vocabulary}

/-- In a standard vocabulary a shuffle performs and prints nothing, or it finds too few values and
changes nothing. -/
lemma IsStandard.execute_shuffle (hv : v.IsStandard) {op : Opcode} (hop : op.isShuffle = true)
    (s : Stack Value) :
    (∃ after, op.Performs v.spellings s.toList after "" ∧
        v.execute op s = Effect.quiet (.ofList after)) ∨
      s.size < op.arity ∧ v.execute op s = Effect.failure s (.raise .stackUnderflow) := by
  rw [hv.execute_eq]
  rcases op.performs_or_fails v.spellings s with ⟨after, text, hperforms⟩ | hlt | ⟨rfl, -⟩
  · obtain rfl := hperforms.text_eq_empty hop
    exact Or.inl ⟨after, hperforms, hperforms.effect_eq⟩
  · exact Or.inr ⟨hlt, Opcode.effect_of_size_lt hlt v⟩
  · cases hop

/-- A shuffle has the same effect on the images of values, up to the images. -/
lemma IsStandard.alike_execute_map (hv : v.IsStandard) (hw : w.IsStandard) {op : Opcode}
    (hop : op.isShuffle = true) (f : Value → Value) (s : Stack Value) :
    Effect.Alike (fun s s' => s' = s.map f) (v.execute op s) (w.execute op (s.map f)) := by
  have hspellings : w.spellings = v.spellings :=
    spellings_congr fun op' => (hw op').trans (hv op').symm
  rcases hv.execute_shuffle hop s with ⟨after, hperforms, heffect⟩ | ⟨hlt, heffect⟩
  · have himage := hperforms.map hop f
    rw [← Stack.toList_map, ← hspellings] at himage
    rw [heffect, hw.execute_eq, himage.effect_eq]
    exact ⟨rfl, rfl, (Stack.map_ofList f after).symm⟩
  · rw [← Stack.size_map f s] at hlt
    rw [heffect, hw.execute_eq, Opcode.effect_of_size_lt hlt]
    exact ⟨rfl, rfl, rfl⟩

end Vocabulary

/-- A token that names a shuffle is dispatched by executing that shuffle. -/
lemma Token.exists_dispatch_eq_execute {token : Token}
    (htoken : token.opcode?.any Opcode.isShuffle = true) :
    ∃ op : Opcode, op.isShuffle = true ∧
      ∀ (v : Vocabulary) (s : Stack Value), v.dispatch token s = v.execute op s := by
  cases token with
  | operator op => exact ⟨op, htoken, fun _ _ => rfl⟩
  | word op => exact ⟨op, htoken, fun _ _ => rfl⟩
  | number value => cases htoken
  | unknown text => cases htoken

namespace Session

variable {session image : Session} {tokens : List Token}

/-- Shuffles stop only for want of values, and they print nothing. -/
lemma runTokens_of_shuffles (hstandard : session.vocabulary.IsStandard)
    (htokens : ∀ token ∈ tokens, token.opcode?.any Opcode.isShuffle = true) :
    (∀ i d, (session.runTokens tokens).1 = some (i, d) → d = .raise .stackUnderflow) ∧
      (session.runTokens tokens).2.output = session.output := by
  constructor
  · intro i d hstop
    obtain ⟨token, htoken, s, herror⟩ := exists_dispatch_of_runTokens_eq_some hstop
    obtain ⟨op, hop, hdispatch⟩ := Token.exists_dispatch_eq_execute (htokens token htoken)
    rw [hdispatch] at herror
    rcases hstandard.execute_shuffle hop s with ⟨after, -, heffect⟩ | ⟨-, heffect⟩
    · rw [heffect] at herror
      cases herror
    · rw [heffect] at herror
      exact (Option.some.inj herror).symm
  · refine output_runTokens_of_silent fun token htoken s => ?_
    obtain ⟨op, hop, hdispatch⟩ := Token.exists_dispatch_eq_execute (htokens token htoken)
    rw [hdispatch]
    rcases hstandard.execute_shuffle hop s with ⟨after, -, heffect⟩ | ⟨-, heffect⟩
    · rw [heffect]
      rfl
    · rw [heffect]
      rfl

/-- Shuffles end in the same way on the images of values, and with the image of the final stack. -/
lemma runTokens_map (hstandard : session.vocabulary.IsStandard)
    (himage : image.vocabulary.IsStandard) {f : Value → Value}
    (hstack : image.stack = session.stack.map f)
    (htokens : ∀ token ∈ tokens, token.opcode?.any Opcode.isShuffle = true) :
    (image.runTokens tokens).1 = (session.runTokens tokens).1 ∧
      (image.runTokens tokens).2.stack = (session.runTokens tokens).2.stack.map f := by
  have halike : ∀ token ∈ tokens, ∀ s s', s' = s.map f →
      (∀ d, (session.vocabulary.dispatch token s).error? = some d → True) →
        Effect.Alike (fun s s' => s' = s.map f) (session.vocabulary.dispatch token s)
          (image.vocabulary.dispatch (id token) s') := by
    rintro token htoken s _ rfl -
    obtain ⟨op, hop, hdispatch⟩ := Token.exists_dispatch_eq_execute (htokens token htoken)
    rw [id, hdispatch, hdispatch]
    exact hstandard.alike_execute_map himage hop f s
  obtain ⟨hstop, hlast, -⟩ :=
    runTokens_related session image id halike (fun _ _ _ => trivial) hstack
  rw [List.map_id] at hstop hlast
  exact ⟨hstop, hlast⟩

/-- Every value on the stack after shuffles was there before. -/
lemma mem_of_mem_stack_runTokens (hstandard : session.vocabulary.IsStandard)
    (htokens : ∀ token ∈ tokens, token.opcode?.any Opcode.isShuffle = true) {x : Value}
    (hx : x ∈ (session.runTokens tokens).2.stack.toList) : x ∈ session.stack.toList := by
  -- `f` moves exactly the values that are not on the stack
  let f : Value → Value := fun y => if y ∈ session.stack.toList then y else y + 1
  have hinitial : session.stack = session.stack.map f := by
    rw [← Stack.toList_inj, Stack.toList_map]
    exact ((List.map_congr_left fun y hy => if_pos hy).trans (List.map_id _)).symm
  have hfinal := congrArg Stack.toList (runTokens_map hstandard hstandard hinitial htokens).2
  rw [Stack.toList_map] at hfinal
  have hfixed : f x = id x := List.map_inj_left.1 (hfinal.symm.trans (List.map_id _).symm) x hx
  by_contra hnew
  have hmoved : f x = x + 1 := if_neg hnew
  rw [hmoved] at hfixed
  exact absurd hfixed (by simp)

/-- Stack words never look at values.  Let tokens that name only `dup`, `drop`, `swap`, `over`,
`rot` and `clear` be run in a standard vocabulary from a stack and from the stack of the images of
its values under any function.  Both runs succeed, or both stop at the same position for want of
values; neither prints anything; and the second one ends with the images of the values with which
the first one ends.  All of these were on the stack from the beginning. -/
theorem runTokens_shuffles_natural (session image : Session) (f : ℚ → ℚ) (tokens : List Token)
    (hstandard : session.vocabulary.IsStandard) (himage : image.vocabulary.IsStandard)
    (hstack : image.stack.toList = session.stack.toList.map f)
    (htokens : ∀ token ∈ tokens, token.opcode?.any Opcode.isShuffle = true) :
    (image.runTokens tokens).1 = (session.runTokens tokens).1 ∧
      (∀ i d, (session.runTokens tokens).1 = some (i, d) → d = .raise .stackUnderflow) ∧
      (session.runTokens tokens).2.output = session.output ∧
      (image.runTokens tokens).2.output = image.output ∧
      (image.runTokens tokens).2.stack.toList =
        (session.runTokens tokens).2.stack.toList.map f ∧
      ∀ x ∈ (session.runTokens tokens).2.stack.toList, x ∈ session.stack.toList := by
  rw [← Stack.toList_map, Stack.toList_inj] at hstack
  obtain ⟨hstop, hlast⟩ := runTokens_map hstandard himage hstack htokens
  obtain ⟨hunderflow, hsilent⟩ := runTokens_of_shuffles hstandard htokens
  refine ⟨hstop, hunderflow, hsilent, (runTokens_of_shuffles himage htokens).2, ?_, ?_⟩
  · rw [hlast, Stack.toList_map]
  · intro x hx
    exact mem_of_mem_stack_runTokens hstandard htokens hx

/-- Two values and their squares: the second `swap` finds one value, whichever it is. -/
theorem runTokens_shuffles_natural_squares :
    Vocabulary.standard.IsStandard ∧
      (∀ token ∈ [Token.word .over, .word .rot, .word .drop, .operator .swap, .word .drop,
        .word .swap], token.opcode?.any Opcode.isShuffle = true) ∧
      (runTokens { stack := .ofList [-7, 1/2] }
        [.word .over, .word .rot, .word .drop, .operator .swap, .word .drop, .word .swap]).1 =
          some (5, .raise .stackUnderflow) ∧
      (runTokens { stack := .ofList [49, 1/4], output := "ok" }
        [.word .over, .word .rot, .word .drop, .operator .swap, .word .drop, .word .swap]).1 =
          some (5, .raise .stackUnderflow) ∧
      (runTokens { stack := .ofList [49, 1/4], output := "ok" }
        [.word .over, .word .rot, .word .drop, .operator .swap, .word .drop,
          .word .swap]).2.stack.toList = [49] ∧
      (runTokens { stack := .ofList [49, 1/4], output := "ok" }
        [.word .over, .word .rot, .word .drop, .operator .swap, .word .drop,
          .word .swap]).2.output = "ok" := by
  have hvalues : runTokens { stack := .ofList [-7, 1/2] }
      [.word .over, .word .rot, .word .drop, .operator .swap, .word .drop, .word .swap] =
        (some (5, .raise .stackUnderflow), { stack := .ofList [-7] }) := by cbv
  have htokens : ∀ token ∈ [Token.word .over, .word .rot, .word .drop, .operator .swap,
      .word .drop, .word .swap], token.opcode?.any Opcode.isShuffle = true := by decide
  have hstandard := Vocabulary.isStandard_standard
  obtain ⟨hstop, -, -, houtput, hlast, -⟩ :=
    runTokens_shuffles_natural { stack := .ofList [-7, 1/2] }
      { stack := .ofList [49, 1/4], output := "ok" } (fun x => x * x)
      [.word .over, .word .rot, .word .drop, .operator .swap, .word .drop, .word .swap]
      hstandard hstandard (by norm_num) htokens
  rw [hvalues] at hstop hlast
  exact ⟨hstandard, htokens, by rw [hvalues], hstop, hlast.trans (by norm_num), houtput⟩

end Session

end StackLang
