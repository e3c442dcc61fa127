import Mathlib
import StackLang.Program
import StackLang.Proofs.BatchRuns
import StackLang.Proofs.Printout
import StackLang.Proofs.StyledDisplay

/-!
# The status at the end of a displayed line

The text that is displayed for a line ends with a status, `ok` or the message of an error.  The
last characters of the four statuses are different, so the status can be read back from the text,
and what the words printed stands in front of it (`IsReport.unique`).

The text is a single line of printable characters.  Lines of files have no line feeds either, so
the line feeds that a batch writes are one behind each executed line and, with styling, one more
behind the echo of each line that failed (`Session.count_newline_display`).
-/

namespace StackLang

open Text Source

/-! ## Statuses -/

/-- The texts with which the display of a line can end. -/
def statusTexts : List String := ["ok", "Stack underflow", "Division by zero", "Undefined word"]

/-- The text of a display divides into what was printed, which is empty or ends with a space, and a
status. -/
structure IsReport (text printed status : String) : Prop where
  eq_append : text = printed ++ status
  ends_space : printed = "" ∨ printed.toList.getLast? = some ' '
  status_mem : status ∈ statusTexts

/-- A status is known by its last character. -/
lemma eq_of_getLast?_eq {status status' : String} (h : status ∈ statusTexts)
    (h' : status' ∈ statusTexts) (hlast : status.toList.getLast? = status'.toList.getLast?) :
    status = status' := by
  have hnodup : (statusTexts.map fun status => status.toList.getLast?).Nodup := by decide
  exact List.inj_on_of_nodup_map hnodup h h' hlast

/-- A text that ends with a status ends with the last character of the status. -/
lemma getLast?_append_status (printed : String) {status : String} (h : status ∈ statusTexts) :
    (printed ++ status).toList.getLast? = status.toList.getLast? := by
  have hne : ∀ status ∈ statusTexts, status.toList.getLast?.isSome = true := by decide
  rw [String.toList_append, List.getLast?_append, Option.or_of_isSome (hne status h)]

/-- A text divides in at most one way. -/
lemma IsReport.unique {text printed status printed' status' : String}
    (h : IsReport text printed status) (h' : IsReport text printed' status') :
    printed' = printed ∧ status' = status := by
  have hlast : status'.toList.getLast? = status.toList.getLast? := by
    rw [← getLast?_append_status printed' h'.status_mem, ← h'.eq_append, h.eq_append,
      getLast?_append_status printed h.status_mem]
  obtain rfl := eq_of_getLast?_eq h'.status_mem h.status_mem hlast
  refine ⟨?_, rfl⟩
  rw [← String.append_left_inj status', ← h'.eq_append, h.eq_append]

namespace Session

/-- The status of the latest line. -/
def status (session : Session) : String := session.lastError?.elim okText Diagnostic.message

/-- The status of a session is one of the four texts. -/
lemma status_mem (session : Session) : session.status ∈ statusTexts := by
  unfold status
  cases session.lastError? with
  | none => decide
  | some e =>
    show e.fault.message ∈ statusTexts
    cases e.fault <;> decide

/-- The status is `ok` exactly when there was no error. -/
lemma status_eq_ok_iff {session : Session} : session.status = "ok" ↔ session.lastError? = none := by
  unfold status
  cases session.lastError? with
  | none => exact iff_of_true rfl rfl
  | some e =>
    have hmessage : ∀ fault : Fault, fault.message ≠ "ok" := by
      intro fault
      cases fault <;> decide
    exact iff_of_false (hmessage e.fault) (by simp)

/-- What is displayed for a line is what its words printed and then the status. -/
lemma output_enter_eq_append_status (session : Session) (line : String) :
    (session.enter line).output =
      (session.runLine line).printed ++ (session.enter line).status := by
  cases hstop : (session.runLine line).stop? with
  | none => simp only [enter_of_none hstop, status, Option.elim_none]
  | some stopped =>
    simp only [enter_of_stop hstop, status, Option.elim_some]
    rfl

/-- What a line displays is what it printed and then its status. -/
lemma isReport_output_enter (session : Session) (line : String) :
    IsReport (session.enter line).output (session.runLine line).printed
      (session.enter line).status where
  eq_append := session.output_enter_eq_append_status line
  ends_space := (session.vocabulary.isPrintout_run _ _ _).ends_space
  status_mem := (session.enter line).status_mem

/-- What is displayed for a line is printable. -/
lemma isPrintable_output_enter (session : Session) (line : String) :
    IsPrintable (session.enter line).output := by
  have hstatus : ∀ status ∈ statusTexts, IsPrintable status := by decide
  rw [output_enter_eq_append_status, isPrintable_append]
  exact ⟨(session.vocabulary.isPrintout_run _ _ _).isPrintable, hstatus _ (status_mem _)⟩

end Session

/-! ## Line feeds -/

/-- What is printable has no line feeds. -/
lemma Text.IsPrintable.count_newline {text : String} (h : IsPrintable text) :
    text.toList.count '\n' = 0 := by
  apply List.count_eq_zero_of_not_mem
  intro hmem
  have hlow := (h '\n' hmem).1
  exact absurd hlow (by decide)

/-- An error displayed in full adds one line feed, the one behind the echo. -/
lemma Diagnostic.count_newline_display {d : Diagnostic} {line printed : String} {parts : Excerpt}
    (hlocated : d.isLocated = true) (hparts : d.column.excerpt? line = some parts)
    (hline : '\n' ∉ line.toList) (houtput : (printed ++ d.message).toList.count '\n' = 0) :
    (d.display line (printed ++ d.message)).toList.count '\n' = 1 := by
  obtain ⟨rfl, -⟩ := Column.utf8ByteSize_of_excerpt? hparts
  rw [display_of_excerpt? hlocated hparts]
  have hpieces := List.count_eq_zero_of_not_mem hline
  simp only [String.toList_append, List.count_append, Nat.add_eq_zero_iff] at houtput hpieces
  -- the codes of the style hold no line feed
  simp [Style.underlined, Style.bold, Style.startUnderline, Style.startBold, Style.reset,
    List.count_append, houtput, hpieces]

/-- The display of a line without line feeds has none, apart from the one behind the echo of a
failed line. -/
lemma Session.count_newline_display (session : Session) {line : String}
    (hline : '\n' ∉ line.toList) (styled : Bool) :
    ((session.enter line).display line (session.enter line).output styled).toList.count '\n' =
      if styled && (session.enter line).lastError?.isSome then 1 else 0 := by
  have houtput := (session.isPrintable_output_enter line).count_newline
  cases hlast : (session.enter line).lastError? with
  | none =>
    rw [display_of_none hlast, houtput]
    simp
  | some e =>
    cases styled with
    | false =>
      rw [display_plain, houtput]
      rfl
    | true =>
      obtain ⟨k, d, hstops⟩ := exists_stopsAt_of_lastError? hlast
      obtain ⟨token, parts, -, hlocated, hparts, hshown⟩ := hstops.lastError?_spec hlast
      simp only [executeLine] at hshown
      rw [hshown] at houtput
      rw [display_styled_of_some hlast, hshown]
      exact Diagnostic.count_newline_display hlocated hparts hline houtput

/-! ## Lines of files -/

namespace Input

/-- A line that was read is the text of a raw line. -/
lemma exists_of_mem_lines_ofRawLines {raws : List (List UInt8)} {line : String}
    (h : line ∈ (ofRawLines raws).lines) : ∃ raw ∈ raws, lineText? raw = some line := by
  induction raws with
  | nil => cases h
  | cons raw raws ih =>
    unfold ofRawLines at h
    split at h
    · next text htext =>
      rcases List.mem_cons.1 h with rfl | hrest
      · exact ⟨raw, List.mem_cons_self, htext⟩
      · obtain ⟨later, hlater, hline⟩ := ih hrest
        exact ⟨later, List.mem_cons_of_mem _ hlater, hline⟩
    · cases h

/-- A line of joined inputs is a line of one of them. -/
lemma mem_lines_append {first second : Input} {line : String}
    (h : line ∈ (first.append second).lines) : line ∈ first.lines ∨ line ∈ second.lines := by
  unfold append at h
  split at h
  · exact Or.inl h
  · exact List.mem_append.1 h

/-- Lines are read without the line feeds behind them. -/
lemma newline_not_mem_of_mem_ofSource {path : String} {source : Source} {line : String}
    (h : line ∈ (ofSource path source).lines) : '\n' ∉ line.toList := by
  cases source with
  | file content =>
    obtain ⟨raw, hraw, hline⟩ := exists_of_mem_lines_ofRawLines h
    exact newline_not_mem_of_lineText? hraw hline
  | _ => cases h

/-- No line that was read has a line feed in it. -/
lemma newline_not_mem_of_mem_ofPaths {read : String → Source} {paths : List String} {line : String}
    (h : line ∈ (ofPaths read paths).lines) : '\n' ∉ line.toList := by
  induction paths with
  | nil => cases h
  | cons path paths ih =>
    rw [ofPaths] at h
    rcases mem_lines_append h with hfirst | hrest
    · exact newline_not_mem_of_mem_ofSource hfirst
    · exact ih hrest

end Input

/-! ## Transcripts and batches -/

/-- The line left an error. -/
def ExecutedLine.failed (executed : ExecutedLine) : Bool := executed.session.lastError?.isSome

/-- The line feeds of a transcript, with and without styling. -/
lemma Session.count_newline_transcriptText (session : Session) (styled : Bool) {lines : List String}
    (h : ∀ line ∈ lines, '\n' ∉ line.toList) :
    (transcriptText styled (session.transcript lines)).toList.count '\n' =
      (session.transcript lines).length +
        (session.transcript lines).countP fun executed => styled && executed.failed := by
  induction lines generalizing session with
  | nil => simp [transcript]
  | cons line lines ih =>
    obtain ⟨hline, hlines⟩ := List.forall_mem_cons.1 h
    have hrest := ih (session.enter line) hlines
    have hdisplay := session.count_newline_display hline styled
    have hend : "\n".toList.count '\n' = 1 := by decide
    simp only [transcript, transcriptText_cons, ExecutedLine.text, ExecutedLine.failed,
      String.toList_append, List.count_append, List.length_cons, List.countP_cons] at hrest ⊢
    omega

/-- The text that is returned for a line consists of printable ASCII characters.  In exactly one way
it is what the line printed, which is empty or ends with a space, and one of the four statuses.  The
status is `ok` exactly when there was no error, and otherwise the message of the error.

So a batch writes one line feed for each line that it executes and, unless it is plain, one more for
each of them that fails. -/
theorem executeLine_isReport_one_line :
    (∀ (session : Session) (line : String),
      IsPrintable (session.executeLine line).1 ∧
        ∃ printed status, IsReport (session.executeLine line).1 printed status ∧
          (∀ printed' status', IsReport (session.executeLine line).1 printed' status' →
            printed' = printed ∧ status' = status) ∧
          (status = "ok" ↔ (session.executeLine line).2.lastError? = none) ∧
          ∀ e, (session.executeLine line).2.lastError? = some e → status = e.fault.message) ∧
      ∀ (read : String → Source) (options : Options),
        (Program.answer read (.run options)).stdout.toList.count '\n' =
          (executedLines read options.files).length +
            if options.plain then 0
            else (executedLines read options.files).countP ExecutedLine.failed := by
  refine ⟨fun session line => ⟨session.isPrintable_output_enter line, ?_⟩, ?_⟩
  · have hreport := session.isReport_output_enter line
    refine ⟨_, _, hreport, fun _ _ hother => hreport.unique hother, Session.status_eq_ok_iff, ?_⟩
    intro e he
    simp only [Session.executeLine] at he
    simp only [Session.status, he, Option.elim_some, Diagnostic.message]
  · intro read options
    have hlines : ∀ line ∈ (Input.ofPaths read options.files).lines, '\n' ∉ line.toList :=
      fun _ => Input.newline_not_mem_of_mem_ofPaths
    have hcount := Session.count_newline_transcriptText {} (!options.plain) hlines
    rw [Program.answer, stdout_runBatch, executedLines, hcount]
    cases options.plain <;> simp

/-- What was printed in front of the failing word is kept apart from the status.  Of the two lines
`7 . 1 0 /` and `.s` of a file only the first one is echoed. -/
theorem executeLine_isReport_one_line_zero_divisor :
    (Session.executeLine {} "7 . 1 0 /").1 = "7 Division by zero" ∧
      (∀ printed status, IsReport "7 Division by zero" printed status →
        printed = "7 " ∧ status = "Division by zero") ∧
      (Program.answer (Node.folder [("a", .file [0x37, 0x20, 0x2E, 0x20, 0x31, 0x20, 0x30, 0x20,
        0x2F, 0x0A, 0x2E, 0x73])]).find (.run { files := ["a"] })).stdout.toList.count '\n' = 3 := by
  obtain ⟨hlines, hbatches⟩ := executeLine_isReport_one_line
  have htext : (Session.executeLine {} "7 . 1 0 /").1 = "7 Division by zero" := by cbv
  have hknown : IsReport "7 Division by zero" "7 " "Division by zero" :=
    ⟨by decide, by decide, by decide⟩
  obtain ⟨-, printed, status, -, hunique, -⟩ := hlines {} "7 . 1 0 /"
  rw [htext] at hunique
  obtain ⟨rfl, rfl⟩ := hunique _ _ hknown
  refine ⟨htext, hunique, ?_⟩
  rw [hbatches]
  cbv

end StackLang
