import Mathlib
import StackLang.Proofs.FailFast
import StackLang.Session.Display

/-!
# What is shown for an executed line

A failed line is shown in three parts: the line once more with its failing word underlined, what
the words in front of the failing one printed, and the message of the error in bold.  The display
of an error makes do with less when the error has no place, when its column does not fit the line,
or when the output does not end with the message.  Right after a line was executed none of this can
happen, because the column and the output both come from the run of that very line
(`Session.StopsAt`).
-/

namespace StackLang

open Text

/-- A column that takes a line apart underlines the part in the middle. -/
lemma Column.underline_of_excerpt? {column : Column} {line : String} {parts : Excerpt}
    (h : column.excerpt? line = some parts) :
    column.underline line = parts.before ++ Style.underlined parts.marked ++ parts.after := by
  simp only [underline, h]

/-- The parts of a line at a column are measured by the ends of the column. -/
lemma Column.utf8ByteSize_of_excerpt? {column : Column} {line : String} {parts : Excerpt}
    (h : column.excerpt? line = some parts) :
    line = parts.before ++ parts.marked ++ parts.after ∧
      parts.before.utf8ByteSize = column.start ∧
      (parts.before ++ parts.marked).utf8ByteSize = column.stop := by
  obtain ⟨hline, hstart, hstop⟩ := excerpt?_eq_some_iff.1 h
  refine ⟨hline, ?_, ?_⟩
  · rwa [byteLength_toList] at hstart
  · rwa [← String.toList_append, byteLength_toList] at hstop

/-- An error with a place that fits the line is displayed in full behind an output that ends with
its message. -/
lemma Diagnostic.display_of_excerpt? {d : Diagnostic} {line : String} {parts : Excerpt}
    (hlocated : d.isLocated = true) (hparts : d.column.excerpt? line = some parts)
    (printed : String) :
    d.display line (printed ++ d.message) =
      parts.before ++ Style.underlined parts.marked ++ parts.after ++ "\n" ++ printed ++
        Style.bold d.message := by
  rw [display, echo, if_pos hlocated, Column.underline_of_excerpt? hparts, beforeEnding_append]

namespace Session

/-- With styling, what is shown is decided by the error that the session keeps. -/
lemma display_styled_of_some {session : Session} {d : Diagnostic} (h : session.lastError? = some d)
    (line output : String) : session.display line output true = d.display line output := by
  simp [display, h]

/-- A line fails only by stopping at one of its tokens. -/
lemma exists_stopsAt_of_lastError? {session : Session} {line : String} {e : Diagnostic}
    (h : (session.executeLine line).2.lastError? = some e) :
    ∃ k d, session.StopsAt line k d := by
  cases hstop : (session.runLine line).stop? with
  | none =>
    rw [(runsThrough_of_stop?_eq_none hstop).lastError?_eq] at h
    cases h
  | some stopped =>
    obtain ⟨k, hk⟩ := exists_stopsAt_of_stop?_eq_some hstop
    exact ⟨k, stopped.2, hk⟩

/-- The error that a stopped line keeps: it has a place, its column takes the line apart at the
failing token, and its message ends what the line displays. -/
lemma StopsAt.lastError?_spec {session : Session} {line : String} {k : Nat} {d e : Diagnostic}
    (h : session.StopsAt line k d) (he : (session.executeLine line).2.lastError? = some e) :
    ∃ token parts, (Token.ofLineWithColumns line)[k]? = some (e.column, token) ∧
      e.isLocated = true ∧ e.column.excerpt? line = some parts ∧
      (session.executeLine line).1 = (session.afterTokens line k).output ++ e.message := by
  obtain ⟨column, token, parts, kept, hmark, -, hparts, hkept, hfault, rfl, -, hlocated, -⟩ :=
    h.stops
  obtain rfl : kept = e := Option.some.inj (hkept.symm.trans he)
  refine ⟨token, parts, hmark, hlocated, hparts, ?_⟩
  rw [h.shown, Diagnostic.message, hfault]

/-- What is shown for a line right after it was executed.  Without styling this is the text that
the execution returned, and so it is with styling when the line left no error.  A line that stopped
at token `k` is shown, with styling, as the line with exactly the column of that token underlined,
and below it what the tokens in front of `k` printed and the message in bold.  The error has a
place, its column fits the line and its message ends the output, so the display never has to leave
anything out. -/
theorem display_executeLine (session : Session) (line : String) :
    (session.executeLine line).2.display line (session.executeLine line).1 false =
        (session.executeLine line).1 ∧
      ((session.executeLine line).2.lastError? = none →
        (session.executeLine line).2.display line (session.executeLine line).1 true =
          (session.executeLine line).1) ∧
      ∀ e, (session.executeLine line).2.lastError? = some e →
        ∃ k d token before word rest,
          session.StopsAt line k d ∧
          (Token.ofLineWithColumns line)[k]? = some (e.column, token) ∧
          line = before ++ word ++ rest ∧
          before.utf8ByteSize = e.column.start ∧
          (before ++ word).utf8ByteSize = e.column.stop ∧
          (session.executeLine line).1 = (session.afterTokens line k).output ++ e.message ∧
          (session.executeLine line).2.display line (session.executeLine line).1 true =
            before ++ "\x1b[4m" ++ word ++ "\x1b[0m" ++ rest ++ "\n" ++
              (session.afterTokens line k).output ++ "\x1b[1m" ++ e.message ++ "\x1b[0m" ∧
          e.isLocated = true ∧ e.column.excerpt? line = some ⟨before, word, rest⟩ ∧
          e.message.toList <:+ (session.executeLine line).1.toList := by
  refine ⟨display_plain _ _ _, fun hnone => display_of_none hnone _ _ _, ?_⟩
  intro e he
  obtain ⟨k, d, hstops⟩ := exists_stopsAt_of_lastError? he
  obtain ⟨token, ⟨before, word, rest⟩, hmark, hlocated, hparts, hshown⟩ := hstops.lastError?_spec he
  obtain ⟨hline, hstart, hstop⟩ := Column.utf8ByteSize_of_excerpt? hparts
  refine ⟨k, d, token, before, word, rest, hstops, hmark, hline, hstart, hstop, hshown, ?_,
    hlocated, hparts, ?_⟩
  · rw [display_styled_of_some he, hshown, Diagnostic.display_of_excerpt? hlocated hparts]
    simp only [Style.underlined, Style.bold, Style.startUnderline, Style.startBold, Style.reset,
      String.append_assoc]
  · rw [hshown, String.toList_append]
    exact List.suffix_append _ _

/-- Letters and blanks of several bytes do not move the underline off the failing word, and what was
printed in front of it stays. -/
theorem display_executeLine_umlaut :
    (executeLine {} "1 .").2.display "1 ." "1 ok" true = "1 ok" ∧
      (executeLine {} "1 .\u3000über 2").2.display "1 .\u3000über 2" "1 Undefined word" true =
        "1 .\u3000\x1b[4müber\x1b[0m 2\n1 \x1b[1mUndefined word\x1b[0m" := by
  have hok : (executeLine {} "1 .").2.lastError? = none := by decide
  have hfails : (executeLine {} "1 .\u3000über 2").2.lastError? =
      some ⟨.undefinedWord, ⟨6, 11⟩, "über"⟩ := by cbv
  have htext : (executeLine {} "1 .\u3000über 2").1 = "1 Undefined word" := by cbv
  refine ⟨(display_executeLine {} "1 .").2.1 hok, ?_⟩
  obtain ⟨k, d, token, before, word, rest, -, -, -, -, -, hshown, hdisplay, -, hparts, -⟩ :=
    (display_executeLine {} "1 .\u3000über 2").2.2 _ hfails
  have hexcerpt : Column.excerpt? ⟨6, 11⟩ "1 .\u3000über 2" =
      some ⟨"1 .\u3000", "über", " 2"⟩ := by decide
  obtain ⟨rfl, rfl, rfl⟩ := Excerpt.mk.inj (Option.some.inj (hparts.symm.trans hexcerpt))
  have hprinted : (afterTokens {} "1 .\u3000über 2" k).output = "1 " := by
    rw [htext] at hshown
    exact (String.append_left_inj "Undefined word").1 hshown.symm
  rw [htext, hprinted] at hdisplay
  exact hdisplay.trans (by decide)

end Session

end StackLang
