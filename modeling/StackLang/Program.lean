import StackLang.Batch
import StackLang.CommandLine

/-!
# The program

What the program does with its arguments, as a function of the arguments and of what is found at
each path.
-/

namespace StackLang

namespace Program

/-- The answer to a request for the version. -/
def versionText : String := "forth 0.1.0\n"

/-- The answer to a request for help. -/
def helpText : String :=
  String.join
    ["A small interactive interpreter for a Forth-style stack language\n",
      "\n",
      "Usage: forth [OPTIONS] [FILES]...\n",
      "\n",
      "Arguments:\n",
      "  [FILES]...  Files to run line by line instead of starting an interactive session\n",
      "\n",
      "Options:\n",
      "      --plain            Print errors without ANSI styling\n",
      "      --prompt <PROMPT>  Text shown while waiting for a line [default: \"\"]\n",
      "  -h, --help             Print help\n",
      "  -V, --version          Print version\n"]

/-- The outcome of a request; without files there is nothing to run. -/
def answer (read : String → Source) : Request → Outcome
  | .help => ⟨0, helpText, ""⟩
  | .version => ⟨0, versionText, ""⟩
  | .run options => runBatch read (!options.plain) options.files

/-- The outcome of the program. -/
def run (read : String → Source) (arguments : List String) : Outcome :=
  match Request.ofCommandLine arguments with
  | .ok request => answer read request
  | .error e => ⟨2, "", "error: " ++ e.message ++ "\n"⟩

end Program

end StackLang
