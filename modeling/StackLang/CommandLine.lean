/-!
# The command line

Arguments are read from left to right.  Everything that does not start with a dash is the path of a
file, and so is a lone dash and whatever follows `--`.  The first request for help or for the
version, and the first mistake, ends the reading.

Of a mistake only the exit code of the program is specified.  The texts of `UsageError.message` are
one wording among others, and nothing is claimed about them.
-/

namespace StackLang

/-- The options that may be given. -/
inductive Switch where
  /-- Asks for output without styling. -/
  | plain
  /-- Sets the text shown while waiting for a line. -/
  | prompt
  | help
  | version
  deriving DecidableEq

namespace Switch

/-- The name of an option behind two dashes. -/
def longName : Switch → String
  | plain => "plain"
  | prompt => "prompt"
  | help => "help"
  | version => "version"

/-- The letter of an option behind one dash. -/
def letter? : Switch → Option Char
  | plain => none
  | prompt => none
  | help => some 'h'
  | version => some 'V'

/-- All options. -/
def all : List Switch := [plain, prompt, help, version]

/-- The option with a given long name. -/
def ofLongName? (name : String) : Option Switch := all.find? fun switch => switch.longName == name

/-- The option with a given letter. -/
def ofLetter? (letter : Char) : Option Switch :=
  all.find? fun switch => switch.letter? == some letter

end Switch

/-- What an argument looks like. -/
inductive Argument where
  | path (text : String)
  /-- The mark `--`, behind which everything is a path. -/
  | separator
  /-- An option by its long name, with the text behind an equals sign if there is one. -/
  | long (name : String) (value? : Option String)
  /-- Options by their letters. -/
  | short (letters : List Char)
  deriving DecidableEq

namespace Argument

/-- A long option from the characters behind its two dashes. -/
def ofLong (characters : List Char) : Argument :=
  let name := String.ofList (characters.takeWhile (· != '='))
  match characters.dropWhile (· != '=') with
  | [] => .long name none
  | _ :: value => .long name (some (String.ofList value))

/-- Tells what an argument looks like. -/
def ofString (text : String) : Argument :=
  match text.toList with
  | ['-'] => .path text
  | ['-', '-'] => .separator
  | '-' :: '-' :: characters => ofLong characters
  | '-' :: letters => .short letters
  | _ => .path text

/-- Whether an argument can be the value of an option in front of it. -/
def isValue (text : String) : Bool :=
  match ofString text with
  | .path _ => true
  | _ => false

end Argument

/-- What a batch or an interactive run is told to do. -/
structure Options where
  /-- The paths of the files to run, in order. -/
  files : List String := []
  /-- Whether output is left without styling. -/
  plain : Bool := false
  /-- The text shown while waiting for a line, if one was given. -/
  prompt? : Option String := none
  deriving DecidableEq

/-- A mistake in the arguments. -/
inductive UsageError where
  | unknownOption (text : String)
  | unexpectedValue (switch : Switch)
  | missingValue (switch : Switch)
  | repeated (switch : Switch)
  | emptyPath
  deriving DecidableEq

/-- The text shown for a mistake in the arguments.  The wording is not specified. -/
def UsageError.message : UsageError → String
  | .unknownOption text => "unexpected argument " ++ text
  | .unexpectedValue switch => "unexpected value for --" ++ switch.longName
  | .missingValue switch => "a value is required for --" ++ switch.longName
  | .repeated switch => "--" ++ switch.longName ++ " cannot be used multiple times"
  | .emptyPath => "a file path must not be empty"

/-- What the arguments ask for. -/
inductive Request where
  | help
  | version
  | run (options : Options)
  deriving DecidableEq

namespace Options

/-- One more file to run. -/
def addFile (options : Options) (path : String) : Except UsageError Options :=
  if path = "" then .error .emptyPath else .ok { options with files := options.files ++ [path] }

/-- More files to run. -/
def addFiles (options : Options) : List String → Except UsageError Options
  | [] => .ok options
  | path :: rest =>
    match options.addFile path with
    | .ok options => options.addFiles rest
    | .error e => .error e

/-- Output without styling, asked for at most once. -/
def setPlain (options : Options) : Except UsageError Options :=
  if options.plain then .error (.repeated .plain) else .ok { options with plain := true }

/-- A prompt, given at most once. -/
def setPrompt (options : Options) (text : String) : Except UsageError Options :=
  if options.prompt?.isSome then .error (.repeated .prompt)
  else .ok { options with prompt? := some text }

end Options

namespace Request

/-- The request that options given by letters amount to.  No option with a letter takes a value or
lets the reading go on, so the first letter decides. -/
def ofLetters : List Char → Except UsageError Request
  | [] => .error (.unknownOption "-")
  | letter :: rest =>
    match Switch.ofLetter? letter with
    | some .help => .ok .help
    | some .version => .ok .version
    | _ => .error (.unknownOption ("-" ++ String.ofList (letter :: rest)))

/-- What arguments ask for, given the options read so far. -/
def ofArguments (options : Options) : List String → Except UsageError Request
  | [] => .ok (.run options)
  | text :: rest =>
    match Argument.ofString text with
    | .path path =>
      match options.addFile path with
      | .ok options => ofArguments options rest
      | .error e => .error e
    | .separator =>
      match options.addFiles rest with
      | .ok options => .ok (.run options)
      | .error e => .error e
    | .short letters => ofLetters letters
    | .long name value? =>
      match Switch.ofLongName? name, value? with
      | none, _ => .error (.unknownOption text)
      | some .help, none => .ok .help
      | some .version, none => .ok .version
      | some .plain, none =>
        match options.setPlain with
        | .ok options => ofArguments options rest
        | .error e => .error e
      | some .prompt, some value =>
        match options.setPrompt value with
        | .ok options => ofArguments options rest
        | .error e => .error e
      | some .prompt, none =>
        match rest with
        | [] => .error (.missingValue .prompt)
        | value :: rest =>
          if Argument.isValue value then
            match options.setPrompt value with
            | .ok options => ofArguments options rest
            | .error e => .error e
          else .error (.missingValue .prompt)
      | some switch, some _ => .error (.unexpectedValue switch)

/-- What the arguments of the program ask for. -/
def ofCommandLine (arguments : List String) : Except UsageError Request :=
  ofArguments {} arguments

end Request

end StackLang
