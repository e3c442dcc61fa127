import Mathlib
import StackLang.Proofs.StatusLines

/-!
# Plain and styled runs

A batch can be run plain or styled.  Both runs execute the same lines in the same sessions; they
differ only in what is written for the lines that failed (`ExecutedLine.Shows`).

What is written for one line is compared first (`Session.shows_enter`), and the pieces of a whole
run follow by induction over its lines.  That different pieces cannot make up for one another is
seen from the line feeds: a styled run writes one more of them for each line that failed.
-/

namespace StackLang

/-! ## What is executed -/

/-- The lines are executed one after the other from the session, each of them in the session that
the one in front of it left. -/
inductive Session.Executes : Session → List String → List ExecutedLine → Prop
  | nil (session : Session) : Executes session [] []
  | cons {session : Session} {line : String} {lines : List String} {executed : List ExecutedLine}
      (h : Executes (session.enter line) lines executed) :
      Executes session (line :: lines) (⟨line, session.enter line⟩ :: executed)

/-- A transcript executes its lines one after the other. -/
lemma Session.executes_transcript (session : Session) (lines : List String) :
    session.Executes lines (session.transcript lines) := by
  induction lines generalizing session with
  | nil => exact .nil session
  | cons line lines ih => exact .cons (ih (session.enter line))

/-! ## What is written for one line -/

/-- The two texts that are written for an executed line, in a plain run and in a styled one.  For a
line that succeeded both are its output.  For a line that failed the plain text is its output, what
was printed and the message; in the styled text the line stands in front of that, with the failing
word underlined, and the message is bold. -/
structure ExecutedLine.Shows (executed : ExecutedLine) (plain styled : String) : Prop where
  of_success : executed.session.lastError? = none →
    plain = executed.session.output ++ "\n" ∧ styled = plain
  of_failure : ∀ e, executed.session.lastError? = some e →
    ∃ before word rest printed,
      executed.line = before ++ word ++ rest ∧
      before.utf8ByteSize = e.column.start ∧ (before ++ word).utf8ByteSize = e.column.stop ∧
      executed.session.output = printed ++ e.message ∧
      plain = printed ++ e.message ++ "\n" ∧
      styled = before ++ "\x1b[4m" ++ word ++ "\x1b[0m" ++ rest ++ "\n" ++ printed ++
        "\x1b[1m" ++ e.message ++ "\x1b[0m" ++ "\n"

namespace Session

/-- Right after a line was executed, its two texts are those of a line that succeeded or of one that
failed. -/
lemma shows_enter (session : Session) (line : String) :
    (ExecutedLine.mk line (session.enter line)).Shows
      (ExecutedLine.text ⟨line, session.enter line⟩ false)
      (ExecutedLine.text ⟨line, session.enter line⟩ true) where
  of_success := by
    intro hnone
    simp only [ExecutedLine.text, display_of_none hnone, and_self]
  of_failure := by
    intro e he
    obtain ⟨k, d, hstops⟩ := exists_stopsAt_of_lastError? he
    obtain ⟨-, ⟨before, word, rest⟩, -, hlocated, hparts, hshown⟩ := hstops.lastError?_spec he
    obtain ⟨hline, hstart, hstop⟩ := Column.utf8ByteSize_of_excerpt? hparts
    simp only [executeLine] at hshown
    refine ⟨before, word, rest, (session.afterTokens line k).output, hline, hstart, hstop, hshown,
      ?_, ?_⟩
    · simp only [ExecutedLine.text, display_plain, hshown]
    · simp only [ExecutedLine.text, display_styled_of_some he, hshown,
        Diagnostic.display_of_excerpt? hlocated hparts, Style.underlined, Style.bold,
        Style.startUnderline, Style.startBold, Style.reset, String.append_assoc]

/-! ## What is written for many lines -/

/-- Line by line, a plain and a styled transcript show the same executed line. -/
lemma forall₂_shows_transcript (session : Session) (lines : List String) :
    List.Forall₂ (fun executed pieces => ExecutedLine.Shows executed pieces.1 pieces.2)
      (session.transcript lines)
      ((session.transcript lines).map fun executed =>
        (executed.text false, executed.text true)) := by
  induction lines generalizing session with
  | nil => exact .nil
  | cons line lines ih => exact .cons (session.shows_enter line) (ih (session.enter line))

/-- Plain and styled transcripts are the same text exactly when no line failed. -/
lemma transcriptText_plain_eq_styled_iff (session : Session) {lines : List String}
    (hlines : ∀ line ∈ lines, '\n' ∉ line.toList) :
    transcriptText false (session.transcript lines) =
        transcriptText true (session.transcript lines) ↔
      ∀ executed ∈ session.transcript lines, executed.session.lastError? = none := by
  constructor
  · intro htexts
    have hplain := session.count_newline_transcriptText false hlines
    have hstyled := session.count_newline_transcriptText true hlines
    rw [htexts, hstyled] at hplain
    have hfailed : (session.transcript lines).countP ExecutedLine.failed = 0 := by
      simpa using hplain
    intro executed hexecuted
    simpa [ExecutedLine.failed] using List.countP_eq_zero.1 hfailed executed hexecuted
  · intro hsuccess
    refine congrArg String.join (List.map_congr_left fun executed hexecuted => ?_)
    simp only [ExecutedLine.text, display_of_none (hsuccess executed hexecuted)]

end Session

/-! ## Two runs of one batch -/

/-- Styling decides neither how a batch ends nor what it reports. -/
lemma runBatch_ends_alike (read : String → Source) (styled styled' : Bool) (paths : List String) :
    (runBatch read styled paths).exitCode = (runBatch read styled' paths).exitCode ∧
      (runBatch read styled paths).stderr = (runBatch read styled' paths).stderr := by
  cases h : (Input.ofPaths read paths).failure? with
  | none =>
    rw [runBatch_of_failure?_eq_none h, runBatch_of_failure?_eq_none h]
    exact ⟨rfl, rfl⟩
  | some failure =>
    rw [runBatch_of_failure?_eq_some h, runBatch_of_failure?_eq_some h]
    exact ⟨rfl, rfl⟩

/-- The option for plain output changes only how failing lines look.  With it and without it a batch
ends with the same exit code and the same message, and executes the same lines, one after the other
in a fresh session.  Both runs write one piece for each executed line.  The two pieces of a line are
equal when it succeeded, and otherwise the styled one has the line with the failing word underlined
in front and the message in bold.  So both runs write the same exactly when no executed line
failed. -/
theorem Program.plain_changes_only_failing_lines (read : String → Source) (options : Options) :
    (answer read (.run { options with plain := true })).exitCode =
        (answer read (.run { options with plain := false })).exitCode ∧
      (answer read (.run { options with plain := true })).stderr =
        (answer read (.run { options with plain := false })).stderr ∧
      Session.Executes {} (Input.ofPaths read options.files).lines
        (executedLines read options.files) ∧
      (∃ pieces : List (String × String),
        (answer read (.run { options with plain := true })).stdout =
            String.join (pieces.map Prod.fst) ∧
          (answer read (.run { options with plain := false })).stdout =
            String.join (pieces.map Prod.snd) ∧
          List.Forall₂ (fun executed piece => ExecutedLine.Shows executed piece.1 piece.2)
            (executedLines read options.files) pieces) ∧
      ((answer read (.run { options with plain := true })).stdout =
          (answer read (.run { options with plain := false })).stdout ↔
        ∀ executed ∈ executedLines read options.files, executed.session.lastError? = none) := by
  obtain ⟨hcode, hstderr⟩ := runBatch_ends_alike read false true options.files
  refine ⟨hcode, hstderr, Session.executes_transcript {} _, ?_, ?_⟩
  · refine ⟨_, ?_, ?_, Session.forall₂_shows_transcript {} _⟩
    · rw [List.map_map]
      exact stdout_runBatch read false options.files
    · rw [List.map_map]
      exact stdout_runBatch read true options.files
  · simp only [answer, stdout_runBatch]
    exact Session.transcriptText_plain_eq_styled_iff {} fun _ =>
      Input.newline_not_mem_of_mem_ofPaths

/-- The second line of a file fails; without styling its echo is missing. -/
example :
    (runBatch (Node.folder [("a", .file [0x31, 0x20, 0x2E, 0x0A, 0x6E, 0x6F])]).find false
        ["a"]).stdout = "1 ok\nUndefined word\n" ∧
      (runBatch (Node.folder [("a", .file [0x31, 0x20, 0x2E, 0x0A, 0x6E, 0x6F])]).find true
        ["a"]).stdout = "1 ok\n\x1b[4mno\x1b[0m\n\x1b[1mUndefined word\x1b[0m\n" :=
  ⟨by cbv, by cbv⟩

end StackLang
