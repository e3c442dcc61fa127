import Mathlib
import StackLang.Batch
import StackLang.Folder
import StackLang.Proofs.TextLines

/-!
# Line endings

A line ends with a line feed, with or without a carriage return in front of it, and both endings are
taken off before the line is executed.  So carriage returns can be put in front of all line feeds of
a file, or of some of them, and the file runs as before (`runBatch_withReturns`).

What a batch reads depends on raw lines only through what is left of them without their endings
(`Input.ofRawLines_congr`), and that is the same for both endings of a line
(`Source.map_chomp_rawLines_withReturns`).  The one condition is that no line feed has a carriage
return in front of it already: only one of two carriage returns would be taken off.
-/

namespace StackLang

namespace Source

/-! ## Carriage returns in front of chosen line feeds -/

/-- The content with a carriage return in front of every line feed at a chosen position.  The
positions of the bytes are counted from `start`. -/
def withReturns (chosen : Nat → Bool) (start : Nat) (content : List UInt8) : List UInt8 :=
  (content.zipIdx start).flatMap fun (b, position) =>
    if b = lineFeed ∧ chosen position then [carriageReturn, lineFeed] else [b]

/-- Each byte is kept, and a chosen line feed gets a carriage return in front. -/
lemma withReturns_cons (chosen : Nat → Bool) (start : Nat) (b : UInt8) (bs : List UInt8) :
    withReturns chosen start (b :: bs) =
      (if b = lineFeed ∧ chosen start then [carriageReturn, lineFeed] else [b]) ++
        withReturns chosen (start + 1) bs := by
  simp [withReturns]

/-- The returns of the second part are counted on from the first. -/
lemma withReturns_append (chosen : Nat → Bool) (start : Nat) (front rest : List UInt8) :
    withReturns chosen start (front ++ rest) =
      withReturns chosen start front ++ withReturns chosen (start + front.length) rest := by
  simp [withReturns, List.zipIdx_append]

/-- Bytes without a line feed stay as they are. -/
lemma withReturns_of_not_mem {body : List UInt8} (h : lineFeed ∉ body) (chosen : Nat → Bool)
    (start : Nat) : withReturns chosen start body = body := by
  induction body generalizing start with
  | nil => rfl
  | cons b body ih =>
    obtain ⟨hb, hbody⟩ := List.ne_and_not_mem_of_not_mem_cons h
    rw [withReturns_cons, ih hbody, if_neg fun hchosen => hb hchosen.1.symm, List.singleton_append]

/-- The first line feed is the first one that may be chosen. -/
lemma exists_withReturns_append_lineFeed {body : List UInt8} (h : lineFeed ∉ body)
    (rest : List UInt8) (chosen : Nat → Bool) (start : Nat) :
    ∃ returns, (returns = [] ∨ returns = [carriageReturn]) ∧
      withReturns chosen start (body ++ lineFeed :: rest) =
        (body ++ returns) ++ lineFeed :: withReturns chosen (start + body.length + 1) rest := by
  rw [withReturns_append, withReturns_of_not_mem h, withReturns_cons]
  by_cases hchosen : chosen (start + body.length) = true
  · exact ⟨[carriageReturn], Or.inr rfl, by simp [hchosen]⟩
  · exact ⟨[], Or.inl rfl, by simp [hchosen]⟩

/-! ## Lines without their endings -/

/-- A byte with two more behind it does not begin an ending. -/
lemma chomp_cons_of_two_le {b : UInt8} {bs : List UInt8} (h : 2 ≤ bs.length) :
    chomp (b :: bs) = b :: chomp bs := by
  rw [chomp, if_neg]
  intro hending
  have hshort : (b :: bs).length ≤ 2 := by
    rcases hending with hending | hending <;> simp [hending]
  rw [List.length_cons] at hshort
  omega

/-- A carriage return in front of the line feed is a part of the ending. -/
lemma chomp_append_return (body : List UInt8) :
    chomp (body ++ [carriageReturn, lineFeed]) = body := by
  induction body with
  | nil => rfl
  | cons b body ih => rw [List.cons_append, chomp_cons_of_two_le (by simp), ih]

/-- A line feed is the whole ending when no carriage return stands in front of it. -/
lemma chomp_append_lineFeed {body : List UInt8} (h : body.getLast? ≠ some carriageReturn) :
    chomp (body ++ [lineFeed]) = body := by
  induction body with
  | nil => rfl
  | cons b body ih =>
    cases body with
    | nil =>
      have hb : b ≠ carriageReturn := fun hb => h (by simp [hb])
      simp [chomp, hb]
    | cons c body =>
      rw [List.cons_append, chomp_cons_of_two_le (by simp), ih (by simpa using h)]

/-- In front of a line feed there is no carriage return, if that is so in the whole content. -/
lemma getLast?_ne_carriageReturn {body rest : List UInt8}
    (h : ¬ [carriageReturn, lineFeed] <:+: body ++ lineFeed :: rest) :
    body.getLast? ≠ some carriageReturn := by
  intro hlast
  obtain ⟨front, rfl⟩ := List.getLast?_eq_some_iff.1 hlast
  exact h ⟨front, rest, by simp⟩

/-- Carriage returns in front of line feeds leave the lines without their endings as they were. -/
lemma map_chomp_rawLines_withReturns {content : List UInt8}
    (h : ¬ [carriageReturn, lineFeed] <:+: content) (chosen : Nat → Bool) (start : Nat) :
    (rawLines (withReturns chosen start content)).map chomp = (rawLines content).map chomp := by
  induction content using line_induction generalizing start with
  | last body hbody => rw [withReturns_of_not_mem hbody]
  | line body rest hbody ih =>
    have hrest : ¬ [carriageReturn, lineFeed] <:+: rest := fun hfound =>
      h (hfound.trans (List.infix_append_of_infix_right (List.suffix_cons _ _).isInfix))
    obtain ⟨returns, hreturn, hsplit⟩ := exists_withReturns_append_lineFeed hbody rest chosen start
    -- with or without a carriage return, the first line ends at the same line feed
    have hfirst : lineFeed ∉ body ++ returns := by
      rcases hreturn with rfl | rfl
      · simpa using hbody
      · have hother : lineFeed ≠ carriageReturn := by decide
        simp [hbody, hother]
    have hchomp : chomp ((body ++ returns) ++ [lineFeed]) = body := by
      rcases hreturn with rfl | rfl
      · rw [List.append_nil, chomp_append_lineFeed (getLast?_ne_carriageReturn h)]
      · rw [List.append_assoc]
        exact chomp_append_return body
    rw [hsplit, rawLines_append_lineFeed hfirst, rawLines_append_lineFeed hbody, List.map_cons,
      List.map_cons, hchomp, chomp_append_lineFeed (getLast?_ne_carriageReturn h), ih hrest]

end Source

open Source

/-! ## What is read and run -/

/-- Raw lines that differ only in their endings are read alike. -/
lemma Input.ofRawLines_congr {raws raws' : List (List UInt8)}
    (h : raws.map chomp = raws'.map chomp) : ofRawLines raws = ofRawLines raws' := by
  induction raws generalizing raws' with
  | nil =>
    obtain rfl : raws' = [] := by simpa using h.symm
    rfl
  | cons raw raws ih =>
    obtain ⟨raw', raws', rfl, hraw, hraws⟩ := List.map_eq_cons_iff.1 h.symm
    simp only [ofRawLines, lineText?, hraw, ih hraws.symm]

/-- A file in which no line feed has a carriage return in front of it runs as it does when any of
its line feeds get one, plain or styled, whether its bytes are text or not. -/
theorem runBatch_withReturns (read read' : String → Source) (styled : Bool) (path path' : String)
    (content : List UInt8) (chosen : Nat → Bool)
    (hbare : ¬ [carriageReturn, lineFeed] <:+: content)
    (hfile : read path = .file content)
    (hfile' : read' path' = .file (withReturns chosen 0 content)) :
    runBatch read' styled [path'] = runBatch read styled [path] := by
  have hlines := Input.ofRawLines_congr (map_chomp_rawLines_withReturns hbare chosen 0)
  have hinput : Input.ofPaths read' [path'] = Input.ofPaths read [path] := by
    simp only [Input.ofPaths, Input.append_empty, hfile, hfile', Input.ofSource, hlines]
  simp only [runBatch, hinput]

/-- The lines are `1 .` with a carriage return and a `2` behind it, `no`, and the first byte of a
longer character.  Only the second line feed gets a carriage return, and the echo of `no` does not
show it. -/
theorem runBatch_withReturns_second_line :
    ¬ [carriageReturn, lineFeed] <:+:
        [0x31, 0x20, 0x2E, 0x0D, 0x32, 0x0A, 0x6E, 0x6F, 0x0A, 0xC3, 0x0A] ∧
      runBatch (Node.folder [("b", .file
          [0x31, 0x20, 0x2E, 0x0D, 0x32, 0x0A, 0x6E, 0x6F, 0x0D, 0x0A, 0xC3, 0x0A])]).find true
          ["b"] =
        ⟨1, "1 ok\n\x1b[4mno\x1b[0m\n\x1b[1mUndefined word\x1b[0m\n",
          "stream did not contain valid UTF-8\n"⟩ := by
  have hbare : ¬ [carriageReturn, lineFeed] <:+:
      [0x31, 0x20, 0x2E, 0x0D, 0x32, 0x0A, 0x6E, 0x6F, 0x0A, 0xC3, 0x0A] := by decide
  refine ⟨hbare, ?_⟩
  rw [runBatch_withReturns
    (Node.folder [("a", .file
      [0x31, 0x20, 0x2E, 0x0D, 0x32, 0x0A, 0x6E, 0x6F, 0x0A, 0xC3, 0x0A])]).find
    _ true "a" "b" _ (· == 8) hbare (by cbv) (by cbv)]
  cbv

end StackLang
