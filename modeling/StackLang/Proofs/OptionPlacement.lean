import Mathlib
import StackLang.Folder
import StackLang.Program

/-!
# Options among paths

Options may stand in front of the paths, behind them and between them.  `Invocation` says which
arguments name given files together with given options; it is a grammar and does not follow the
reading of the arguments.  Every invocation is read as what it says (`Invocation.ofArguments_eq`),
so where the options stand makes no difference to the run, and neither does the prompt.
-/

namespace StackLang

/-! ## What the arguments say -/

/-- The text begins as an option does. -/
def StartsWithDash (text : String) : Prop := text.toList.head? = some '-'

instance (text : String) : Decidable (StartsWithDash text) :=
  inferInstanceAs (Decidable (_ = _))

/-- The arguments name the files in order, ask for plain output or not, and set the prompt or not.
The options stand anywhere among the paths, in front of a separator if there is one.  In front of it
no path begins with a dash, other than the lone dash. -/
inductive Invocation : List String → Bool → Option String → List String → Prop
  | done : Invocation [] false none []
  | separator (files : List String) : Invocation files false none ("--" :: files)
  | file {path : String} {files arguments : List String} {plain : Bool} {prompt? : Option String}
      (hpath : path = "-" ∨ ¬ StartsWithDash path)
      (rest : Invocation files plain prompt? arguments) :
      Invocation (path :: files) plain prompt? (path :: arguments)
  | plain {files arguments : List String} {prompt? : Option String}
      (rest : Invocation files false prompt? arguments) :
      Invocation files true prompt? ("--plain" :: arguments)
  | prompt {text : String} {files arguments : List String} {plain : Bool}
      (htext : ¬ StartsWithDash text) (rest : Invocation files plain none arguments) :
      Invocation files plain (some text) ("--prompt" :: text :: arguments)
  | promptIs {text : String} {files arguments : List String} {plain : Bool}
      (rest : Invocation files plain none arguments) :
      Invocation files plain (some text) (("--prompt=" ++ text) :: arguments)

/-- One way of writing a command line is the option, the separator and then the files. -/
lemma invocation_append_separator (plain : Bool) (files : List String) :
    Invocation files plain none ((if plain then ["--plain"] else []) ++ "--" :: files) := by
  cases plain with
  | false => exact .separator files
  | true => exact .plain (.separator files)

/-! ## How the arguments are read -/

namespace Argument

/-- What starts with no dash is a path. -/
lemma ofString_of_not_startsWithDash {text : String} (h : ¬ StartsWithDash text) :
    ofString text = .path text := by
  unfold StartsWithDash at h
  unfold ofString
  split <;> simp_all

/-- A dash alone is a path as well. -/
lemma ofString_eq_path {text : String} (h : text = "-" ∨ ¬ StartsWithDash text) :
    ofString text = .path text := by
  rcases h with rfl | h
  · rfl
  · exact ofString_of_not_startsWithDash h

/-- The value of a prompt is what stands behind the first equals sign. -/
lemma ofString_promptIs (text : String) :
    ofString ("--prompt=" ++ text) = .long "prompt" (some text) := by
  simp [ofString, ofLong]

end Argument

namespace Options

/-- A path that is not empty is added behind the files. -/
lemma addFile_of_ne {path : String} (h : path ≠ "") (options : Options) :
    options.addFile path = .ok { options with files := options.files ++ [path] } := by
  rw [addFile, if_neg h]

/-- Paths of which none is empty are added behind the files. -/
lemma addFiles_of_forall_ne {paths : List String} (h : ∀ path ∈ paths, path ≠ "")
    (options : Options) :
    options.addFiles paths = .ok { options with files := options.files ++ paths } := by
  induction paths generalizing options with
  | nil => simp [addFiles]
  | cons path paths ih =>
    obtain ⟨hpath, hpaths⟩ := List.forall_mem_cons.1 h
    simp [addFiles, addFile_of_ne hpath, ih hpaths]

/-- The plain output can be asked for once. -/
lemma setPlain_of_eq_false {options : Options} (h : options.plain = false) :
    options.setPlain = .ok { options with plain := true } := by
  simp [setPlain, h]

/-- A prompt can be given once. -/
lemma setPrompt_of_eq_none {options : Options} (h : options.prompt? = none) (text : String) :
    options.setPrompt text = .ok { options with prompt? := some text } := by
  simp [setPrompt, h]

end Options

namespace Request

/-- A path in front is added to the files, and the reading goes on. -/
lemma ofArguments_file {path : String} (hpath : path = "-" ∨ ¬ StartsWithDash path)
    (hne : path ≠ "") (options : Options) (rest : List String) :
    ofArguments options (path :: rest) =
      ofArguments { options with files := options.files ++ [path] } rest := by
  rw [ofArguments.eq_def]
  simp only [Argument.ofString_eq_path hpath, Options.addFile_of_ne hne]

/-- Behind the separator there are files only. -/
lemma ofArguments_separator {files : List String} (h : ∀ path ∈ files, path ≠ "")
    (options : Options) :
    ofArguments options ("--" :: files) =
      .ok (.run { options with files := options.files ++ files }) := by
  have hmark : Argument.ofString "--" = .separator := rfl
  rw [ofArguments.eq_def]
  simp only [hmark, Options.addFiles_of_forall_ne h]

/-- The option for plain output in front is noted, and the reading goes on. -/
lemma ofArguments_plain {options : Options} (h : options.plain = false) (rest : List String) :
    ofArguments options ("--plain" :: rest) = ofArguments { options with plain := true } rest := by
  have hlong : Argument.ofString "--plain" = .long "plain" none := by decide
  have hname : Switch.ofLongName? "plain" = some .plain := by decide
  rw [ofArguments.eq_def]
  simp only [hlong, hname, Options.setPlain_of_eq_false h]

/-- A prompt in front, given in two arguments, is noted, and the reading goes on. -/
lemma ofArguments_prompt {options : Options} (h : options.prompt? = none) {text : String}
    (htext : ¬ StartsWithDash text) (rest : List String) :
    ofArguments options ("--prompt" :: text :: rest) =
      ofArguments { options with prompt? := some text } rest := by
  have hlong : Argument.ofString "--prompt" = .long "prompt" none := by decide
  have hname : Switch.ofLongName? "prompt" = some .prompt := by decide
  have hvalue : Argument.isValue text = true := by
    simp only [Argument.isValue, Argument.ofString_of_not_startsWithDash htext]
  rw [ofArguments.eq_def]
  simp only [hlong, hname, hvalue, if_true, Options.setPrompt_of_eq_none h]

/-- A prompt in front, given in one argument, is noted, and the reading goes on. -/
lemma ofArguments_promptIs {options : Options} (h : options.prompt? = none) (text : String)
    (rest : List String) :
    ofArguments options (("--prompt=" ++ text) :: rest) =
      ofArguments { options with prompt? := some text } rest := by
  have hname : Switch.ofLongName? "prompt" = some .prompt := by decide
  rw [ofArguments.eq_def]
  simp only [Argument.ofString_promptIs, hname, Options.setPrompt_of_eq_none h]

end Request

/-- An invocation is read as what it says, behind arguments that gave none of its options. -/
lemma Invocation.ofArguments_eq {files arguments : List String} {plain : Bool}
    {prompt? : Option String} (h : Invocation files plain prompt? arguments)
    (hfiles : ∀ path ∈ files, path ≠ "") (options : Options)
    (hplain : plain = true → options.plain = false)
    (hprompt : prompt? ≠ none → options.prompt? = none) :
    Request.ofArguments options arguments =
      .ok (.run ⟨options.files ++ files, options.plain || plain, prompt?.or options.prompt?⟩) := by
  -- what was read so far changes at each argument, and an option still to come was not in it
  induction h generalizing options with
  | done => simp [Request.ofArguments]
  | separator files => simp [Request.ofArguments_separator hfiles]
  | @file path _ _ _ _ hpath rest ih =>
    obtain ⟨hne, hrest⟩ := List.forall_mem_cons.1 hfiles
    rw [Request.ofArguments_file hpath hne]
    simpa using ih hrest { options with files := options.files ++ [path] } hplain hprompt
  | plain rest ih =>
    rw [Request.ofArguments_plain (hplain rfl)]
    simpa using ih hfiles { options with plain := true } (by simp) hprompt
  | @prompt text _ _ _ htext rest ih =>
    rw [Request.ofArguments_prompt (hprompt (by simp)) htext]
    simpa using ih hfiles { options with prompt? := some text } hplain (by simp)
  | @promptIs text _ _ _ rest ih =>
    rw [Request.ofArguments_promptIs (hprompt (by simp))]
    simpa using ih hfiles { options with prompt? := some text } hplain (by simp)

/-- A command line is read as the files and the options that it writes. -/
lemma Invocation.ofCommandLine_eq {files arguments : List String} {plain : Bool}
    {prompt? : Option String} (h : Invocation files plain prompt? arguments)
    (hfiles : ∀ path ∈ files, path ≠ "") :
    Request.ofCommandLine arguments = .ok (.run ⟨files, plain, prompt?⟩) := by
  rw [Request.ofCommandLine]
  simpa using h.ofArguments_eq hfiles {} (fun _ => rfl) (fun _ => rfl)

namespace Program

/-- A command line runs the batch of its files, wherever its options stand. -/
lemma run_of_invocation {files arguments : List String} {plain : Bool} {prompt? : Option String}
    (h : Invocation files plain prompt? arguments) (hfiles : ∀ path ∈ files, path ≠ "")
    (read : String → Source) : run read arguments = runBatch read (!plain) files := by
  simp only [run, h.ofCommandLine_eq hfiles, answer]

/-- Where the options stand does not matter.  The arguments are a request to run exactly the files
that they name, in this order, and with styling unless plain output is asked for.  The outcome is
the same as with all files behind a separator and no prompt. -/
theorem run_options_anywhere (read : String → Source) {files arguments : List String}
    {plain : Bool} {prompt? : Option String} (h : Invocation files plain prompt? arguments)
    (hfiles : files ≠ []) (hpaths : ∀ path ∈ files, path ≠ "") :
    (∃ options, Request.ofCommandLine arguments = .ok (.run options) ∧
        options.files = files ∧ options.files ≠ [] ∧ options.plain = plain) ∧
      run read arguments = runBatch read (!plain) files ∧
      run read arguments = run read ((if plain then ["--plain"] else []) ++ "--" :: files) := by
  have hrun := run_of_invocation h hpaths read
  have hplainest := run_of_invocation (invocation_append_separator plain files) hpaths read
  exact ⟨⟨_, h.ofCommandLine_eq hpaths, rfl, hfiles, rfl⟩, hrun, hrun.trans hplainest.symm⟩

/-- The text `b` is a prompt here and no file to run, and the last argument is a file and no request
for help.  The three files hold `1`, `2` and `. no`. -/
theorem run_options_anywhere_prompt_between :
    Invocation ["a", "-", "-h"] true (some "b")
        ["a", "--prompt", "b", "--plain", "-", "--", "-h"] ∧
      run (Node.folder [("a", .file [0x31]), ("b", .file [0x2E]), ("-", .file [0x32]),
          ("-h", .file [0x2E, 0x20, 0x6E, 0x6F])]).find
          ["a", "--prompt", "b", "--plain", "-", "--", "-h"] =
        ⟨0, "ok\nok\n2 Undefined word\n", ""⟩ := by
  have hinvocation : Invocation ["a", "-", "-h"] true (some "b")
      ["a", "--prompt", "b", "--plain", "-", "--", "-h"] :=
    .file (Or.inr (by decide)) (.prompt (by decide) (.plain (.file (Or.inl rfl) (.separator _))))
  refine ⟨hinvocation, ?_⟩
  rw [(run_options_anywhere _ hinvocation (by decide) (by decide)).2.1]
  cbv

end Program

end StackLang
