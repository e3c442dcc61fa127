import Mathlib
import StackLang.Batch
import StackLang.Folder
import StackLang.Proofs.TextLines

/-!
# Runs over several files

A batch executes the lines that can be read, in order, and ends with the first thing that cannot be
read.  So a batch that fails has done what a batch that succeeds does with the files in front of the
failing one and with the lines in front of the first one that is not text
(`runBatch_keeps_work_before_failure`).  A batch over several files that end with complete lines is
a batch over one file that holds all of them (`runBatch_eq_runBatch_flatten`).

Both are facts about the input of the batch; what the executed lines do does not matter for them.
-/

namespace StackLang

open Source

/-! ## What can be read -/

namespace Source

/-- The source is a file whose whole content is text. -/
def IsReadable (source : Source) : Prop := ∃ content, source = .file content ∧ IsText content

/-- Reading what is found at a path ends behind the bytes `kept`, because of a failure. -/
inductive Fails (path : String) : Source → List UInt8 → ReadFailure → Prop
  | missing : Fails path .missing [] (.notFound path)
  | belowFile : Fails path .belowFile [] (.notFolder path)
  | tooLong : Fails path .tooLong [] (.nameTooLong path)
  | folder : Fails path .folder [] .isFolder
  | notText {content kept : List UInt8} (h : BreaksAt content kept) :
      Fails path (.file content) kept .notText

/-- A file can be read when its content is text. -/
lemma isReadable_file_iff {content : List UInt8} : (file content).IsReadable ↔ IsText content := by
  simp [IsReadable]

end Source

namespace Input

/-- Two inputs behind one another fail when one of them fails. -/
lemma failure?_append_eq_none_iff {first second : Input} :
    (first.append second).failure? = none ↔ first.failure? = none ∧ second.failure? = none := by
  unfold append
  split
  · next failure hfirst => simp [hfirst]
  · next hfirst => simp [hfirst]

/-- An input that does not fail is continued by the next one. -/
lemma append_of_failure?_eq_none {first : Input} (h : first.failure? = none) (second : Input) :
    first.append second = ⟨first.lines ++ second.lines, second.failure?⟩ := by
  simp only [append, h]

/-- An input that fails hides the next one. -/
lemma append_of_failure?_eq_some {first : Input} {failure : ReadFailure}
    (h : first.failure? = some failure) (second : Input) : first.append second = first := by
  simp only [append, h]

/-- Lines can all be read when each of them is text. -/
lemma failure?_ofRawLines_eq_none_iff {raws : List (List UInt8)} :
    (ofRawLines raws).failure? = none ↔ ∀ raw ∈ raws, IsText raw := by
  induction raws with
  | nil => simp [ofRawLines, empty]
  | cons raw raws ih =>
    unfold ofRawLines
    rw [List.forall_mem_cons]
    cases hline : lineText? raw with
    | none => simp [failed, lineText?_eq_none_iff.1 hline]
    | some line =>
      have htext : IsText raw := by
        by_contra hraw
        rw [lineText?_eq_none_iff.2 hraw] at hline
        cases hline
      simp only [cons, ih, htext, true_and]

/-- Lines are read up to the first one that is not text. -/
lemma ofRawLines_append_of_not_isText {good : List (List UInt8)} {bad : List UInt8}
    (hgood : ∀ raw ∈ good, IsText raw) (hbad : ¬ IsText bad) (rest : List (List UInt8)) :
    ofRawLines (good ++ bad :: rest) = ⟨(ofRawLines good).lines, some .notText⟩ := by
  have hstop : ofRawLines (bad :: rest) = failed .notText := by
    simp only [ofRawLines, lineText?_eq_none_iff.2 hbad]
  rw [ofRawLines_append, append_of_failure?_eq_none (failure?_ofRawLines_eq_none_iff.2 hgood), hstop]
  simp [failed]

/-- A source is read without failure exactly when it is a file of text. -/
lemma failure?_ofSource_eq_none_iff {path : String} {source : Source} :
    (ofSource path source).failure? = none ↔ source.IsReadable := by
  cases source with
  | file content =>
    rw [isReadable_file_iff, isText_iff_forall_mem_rawLines]
    exact failure?_ofRawLines_eq_none_iff
  | missing => simp [ofSource, failed, IsReadable]
  | belowFile => simp [ofSource, failed, IsReadable]
  | tooLong => simp [ofSource, failed, IsReadable]
  | folder => simp [ofSource, failed, IsReadable]

/-- What cannot be read as a whole fails somewhere.  The bytes in front of the failure are text, and
the lines that were read are those of these bytes. -/
lemma exists_fails {source : Source} (h : ¬ source.IsReadable) (path : String) :
    ∃ kept failure, source.Fails path kept failure ∧ IsText kept ∧
      ofSource path source = ⟨(ofSource path (.file kept)).lines, some failure⟩ := by
  cases source with
  | missing => exact ⟨[], _, .missing, isText_nil, rfl⟩
  | belowFile => exact ⟨[], _, .belowFile, isText_nil, rfl⟩
  | tooLong => exact ⟨[], _, .tooLong, isText_nil, rfl⟩
  | folder => exact ⟨[], _, .folder, isText_nil, rfl⟩
  | file content =>
    rw [isReadable_file_iff] at h
    obtain ⟨kept, line, rest, rfl, hline, hkept, hbroken⟩ := exists_first_broken_line h
    refine ⟨kept, _, .notText (breaksAt_of_isLine hline hkept hbroken), hkept, ?_⟩
    simp only [ofSource]
    rw [hline.rawLines_eq]
    exact ofRawLines_append_of_not_isText (isText_iff_forall_mem_rawLines.1 hkept) hbroken _

/-! ## Several paths -/

/-- What is read from the first paths comes in front of what is read from the others. -/
lemma ofPaths_append (read : String → Source) (first second : List String) :
    ofPaths read (first ++ second) = (ofPaths read first).append (ofPaths read second) := by
  induction first with
  | nil => rfl
  | cons path first ih =>
    rw [List.cons_append, ofPaths, ih, ofPaths, append_assoc]

/-- Only the sources at the given paths matter. -/
lemma ofPaths_congr {read read' : String → Source} {paths : List String}
    (h : ∀ path ∈ paths, read path = read' path) : ofPaths read paths = ofPaths read' paths := by
  induction paths with
  | nil => rfl
  | cons path paths ih =>
    obtain ⟨hpath, hpaths⟩ := List.forall_mem_cons.1 h
    rw [ofPaths, ofPaths, hpath, ih hpaths]

/-- Paths are read without failure exactly when each of them leads to a file of text. -/
lemma failure?_ofPaths_eq_none_iff {read : String → Source} {paths : List String} :
    (ofPaths read paths).failure? = none ↔ ∀ path ∈ paths, (read path).IsReadable := by
  induction paths with
  | nil => simp [ofPaths, empty]
  | cons path paths ih =>
    rw [ofPaths, failure?_append_eq_none_iff, failure?_ofSource_eq_none_iff, ih,
      List.forall_mem_cons]

/-- Behind readable files, a path that fails is the last one of which anything is read. -/
lemma ofPaths_append_of_failure {read : String → Source} {before : List String} {path : String}
    {lines : List String} {failure : ReadFailure}
    (hbefore : ∀ earlier ∈ before, (read earlier).IsReadable)
    (hpath : ofSource path (read path) = ⟨lines, some failure⟩) (rest : List String) :
    ofPaths read (before ++ path :: rest) =
      ⟨(ofPaths read before).lines ++ lines, some failure⟩ := by
  have hstop : (ofSource path (read path)).failure? = some failure := by rw [hpath]
  rw [ofPaths_append, append_of_failure?_eq_none (failure?_ofPaths_eq_none_iff.2 hbefore), ofPaths,
    append_of_failure?_eq_some hstop, hpath]

/-- When a path that fails is replaced by a file of text, the batch up to there reads everything. -/
lemma ofPaths_update_concat {read : String → Source} {before : List String} {path : String}
    {kept : List UInt8} (hbefore : ∀ earlier ∈ before, (read earlier).IsReadable)
    (hpath : ¬ (read path).IsReadable) (hkept : IsText kept) :
    ofPaths (Function.update read path (.file kept)) (before ++ [path]) =
      ⟨(ofPaths read before).lines ++ (ofSource path (.file kept)).lines, none⟩ := by
  -- the path that fails is none of the readable ones in front of it
  have hsame : ∀ earlier ∈ before, Function.update read path (.file kept) earlier = read earlier := by
    intro earlier hearlier
    apply Function.update_of_ne
    rintro rfl
    exact hpath (hbefore earlier hearlier)
  have hlast : ofPaths (Function.update read path (.file kept)) [path] =
      ofSource path (.file kept) := by
    simp [ofPaths]
  have hnone : (ofSource path (.file kept)).failure? = none :=
    failure?_ofSource_eq_none_iff.2 (isReadable_file_iff.2 hkept)
  rw [ofPaths_append, ofPaths_congr hsame, hlast,
    append_of_failure?_eq_none (failure?_ofPaths_eq_none_iff.2 hbefore), hnone]

/-- Files that end with complete lines, all but the last one, are read like one file. -/
lemma ofPaths_eq_ofRawLines {read : String → Source} {paths : List String}
    {contents : List (List UInt8)} (hfiles : paths.map read = contents.map Source.file)
    (hends : ∀ content ∈ contents.dropLast, EndsLine content) :
    ofPaths read paths = ofRawLines (rawLines contents.flatten) := by
  induction contents generalizing paths with
  | nil =>
    obtain rfl : paths = [] := by simpa using hfiles
    rfl
  | cons content contents ih =>
    obtain ⟨path, paths, rfl, hpath, hpaths⟩ := List.map_eq_cons_iff.1 hfiles
    rw [ofPaths, hpath, List.flatten_cons]
    cases contents with
    | nil =>
      obtain rfl : paths = [] := by simpa using hpaths
      simp [ofPaths, ofSource]
    | cons next contents =>
      rw [List.dropLast_cons_cons, List.forall_mem_cons] at hends
      rw [ih hpaths hends.2, rawLines_append hends.1, ofRawLines_append]
      rfl

end Input

/-! ## Outcomes -/

/-- The lines that a batch executes, each with the session after it. -/
def executedLines (read : String → Source) (paths : List String) : List ExecutedLine :=
  Session.transcript {} (Input.ofPaths read paths).lines

/-- A batch that could be read to its end shows its lines and succeeds. -/
lemma runBatch_of_failure?_eq_none {read : String → Source} {paths : List String}
    (h : (Input.ofPaths read paths).failure? = none) (styled : Bool) :
    runBatch read styled paths = ⟨0, transcriptText styled (executedLines read paths), ""⟩ := by
  simp only [runBatch, h, executedLines]

/-- A batch that could not be read to its end shows the lines in front of the failure, and then
reports it. -/
lemma runBatch_of_failure?_eq_some {read : String → Source} {paths : List String}
    {failure : ReadFailure} (h : (Input.ofPaths read paths).failure? = some failure)
    (styled : Bool) :
    runBatch read styled paths =
      ⟨1, transcriptText styled (executedLines read paths), failure.message ++ "\n"⟩ := by
  simp only [runBatch, h, executedLines]

/-- Whether a batch fails or not, it writes what its executed lines show. -/
lemma stdout_runBatch (read : String → Source) (styled : Bool) (paths : List String) :
    (runBatch read styled paths).stdout = transcriptText styled (executedLines read paths) := by
  cases h : (Input.ofPaths read paths).failure? with
  | none => rw [runBatch_of_failure?_eq_none h]
  | some failure => rw [runBatch_of_failure?_eq_some h]

/-- A batch succeeds exactly when every path leads to a file of text. -/
lemma exitCode_runBatch_eq_zero_iff {read : String → Source} {styled : Bool}
    {paths : List String} :
    (runBatch read styled paths).exitCode = 0 ↔ ∀ path ∈ paths, (read path).IsReadable := by
  rw [← Input.failure?_ofPaths_eq_none_iff]
  cases h : (Input.ofPaths read paths).failure? with
  | none => simp [runBatch_of_failure?_eq_none h]
  | some failure => simp [runBatch_of_failure?_eq_some h]

/-- A batch ends without failure exactly when every path leads to a file of text.  Otherwise it
fails with exit code 1 and a single message, because of the first path that cannot be read as a
whole.  What it wrote and which lines it executed are those of a shorter batch that succeeds: the
files in front of that path and then, in its place, a file with only the bytes in front of the
failure.  These are the bytes up to the first line that is not text, and none if the path cannot be
opened or is a folder. -/
theorem runBatch_keeps_work_before_failure (read : String → Source) (styled : Bool)
    (paths : List String) :
    ((runBatch read styled paths).exitCode = 0 ↔ ∀ path ∈ paths, (read path).IsReadable) ∧
      ((runBatch read styled paths).exitCode = 0 → (runBatch read styled paths).stderr = "") ∧
      ((runBatch read styled paths).exitCode ≠ 0 →
        ∃ before path rest kept failure,
          paths = before ++ path :: rest ∧
          (∀ earlier ∈ before, (read earlier).IsReadable) ∧
          (read path).Fails path kept failure ∧
          (runBatch (Function.update read path (.file kept)) styled (before ++ [path])).exitCode =
            0 ∧
          runBatch read styled paths =
            ⟨1,
              (runBatch (Function.update read path (.file kept)) styled (before ++ [path])).stdout,
              failure.message ++ "\n"⟩ ∧
          executedLines read paths =
            executedLines (Function.update read path (.file kept)) (before ++ [path])) := by
  refine ⟨exitCode_runBatch_eq_zero_iff, ?_, ?_⟩
  · intro hzero
    have hnone := Input.failure?_ofPaths_eq_none_iff.2 (exitCode_runBatch_eq_zero_iff.1 hzero)
    rw [runBatch_of_failure?_eq_none hnone]
  · intro hfailed
    rw [ne_eq, exitCode_runBatch_eq_zero_iff] at hfailed
    obtain ⟨before, path, rest, rfl, hbefore, hpath⟩ := exists_first_not hfailed
    obtain ⟨kept, failure, hfails, hkept, hsource⟩ := Input.exists_fails hpath path
    have hwhole := Input.ofPaths_append_of_failure hbefore hsource rest
    have hcut := Input.ofPaths_update_concat hbefore hpath hkept
    have hlines : executedLines read (before ++ path :: rest) =
        executedLines (Function.update read path (.file kept)) (before ++ [path]) := by
      simp only [executedLines, hwhole, hcut]
    have hsucceeds := runBatch_of_failure?_eq_none (congrArg Input.failure? hcut) styled
    refine ⟨before, path, rest, kept, failure, rfl, hbefore, hfails, ?_, ?_, hlines⟩
    · rw [hsucceeds]
    · rw [runBatch_of_failure?_eq_some (congrArg Input.failure? hwhole), hsucceeds, hlines]

/-- A folder with the files `7 .` and, around a line that is not text, `1 .` and `2 .`. -/
def Node.halfReadable : Node :=
  .folder [("a", .file [0x37, 0x20, 0x2E, 0x0A]),
    ("b", .file [0x31, 0x20, 0x2E, 0x0A, 0xFF, 0x0A, 0x32, 0x20, 0x2E])]

/-- The first line of the second file is still executed, its last line is not, and it does not
matter that there is no third file. -/
theorem runBatch_keeps_work_before_failure_second_file :
    (runBatch Node.halfReadable.find true ["a", "b", "c"]).exitCode ≠ 0 ∧
      ∃ before path rest kept failure,
        ["a", "b", "c"] = before ++ path :: rest ∧
        (Node.halfReadable.find path).Fails path kept failure ∧
        runBatch Node.halfReadable.find true ["a", "b", "c"] =
          ⟨1, "7 ok\n1 ok\n", failure.message ++ "\n"⟩ := by
  have hfailed : (runBatch Node.halfReadable.find true ["a", "b", "c"]).exitCode ≠ 0 := by cbv
  obtain ⟨before, path, rest, kept, failure, hpaths, -, hfails, -, houtcome, -⟩ :=
    (runBatch_keeps_work_before_failure _ _ _).2.2 hfailed
  have hstdout : (runBatch Node.halfReadable.find true ["a", "b", "c"]).stdout =
      "7 ok\n1 ok\n" := by cbv
  refine ⟨hfailed, before, path, rest, kept, failure, hpaths, hfails, ?_⟩
  rw [houtcome] at hstdout ⊢
  rw [← hstdout]

/-- Files of which all but the last one are empty or end with a line feed are run like one file that
holds their contents one behind the other, whether these are text or not. -/
theorem runBatch_eq_runBatch_flatten (read joined : String → Source) (styled : Bool)
    (paths : List String) (whole : String) (contents : List (List UInt8))
    (hfiles : paths.map read = contents.map Source.file)
    (hends : ∀ content ∈ contents.dropLast, content = [] ∨ content.getLast? = some lineFeed)
    (hwhole : joined whole = .file contents.flatten) :
    runBatch read styled paths = runBatch joined styled [whole] := by
  have hread := Input.ofPaths_eq_ofRawLines hfiles hends
  have hjoined : Input.ofPaths joined [whole] = Input.ofRawLines (rawLines contents.flatten) := by
    simp [Input.ofPaths, hwhole, Input.ofSource]
  simp only [runBatch, hread, hjoined]

/-- The files are `1 2` with a carriage return, an empty one, and `+ .` with the first byte of a
longer character behind it.  The sum is printed before that byte ends the run. -/
theorem runBatch_eq_runBatch_flatten_sum :
    runBatch (Node.folder [("a", .file [0x31, 0x20, 0x32, 0x0D, 0x0A]), ("b", .file []),
        ("c", .file [0x2B, 0x20, 0x2E, 0x0A, 0xC3])]).find true ["a", "b", "c"] =
      ⟨1, "ok\n3 ok\n", "stream did not contain valid UTF-8\n"⟩ := by
  have hjoined := runBatch_eq_runBatch_flatten
    (Node.folder [("a", .file [0x31, 0x20, 0x32, 0x0D, 0x0A]), ("b", .file []),
      ("c", .file [0x2B, 0x20, 0x2E, 0x0A, 0xC3])]).find
    (Node.folder [("d", .file [0x31, 0x20, 0x32, 0x0D, 0x0A, 0x2B, 0x20, 0x2E, 0x0A, 0xC3])]).find
    true ["a", "b", "c"] "d" [[0x31, 0x20, 0x32, 0x0D, 0x0A], [], [0x2B, 0x20, 0x2E, 0x0A, 0xC3]]
    (by cbv) (by decide) (by cbv)
  rw [hjoined]
  cbv

end StackLang
