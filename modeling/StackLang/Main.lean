import StackLang.Program

/-!
# The executable

Reads the files named on the command line, runs the program on them and writes its outcome.
Without files it executes the lines of standard input as they come.
-/

namespace StackLang

/-- Finds out what is at a path.  A folder can be opened and fails only when it is read, with an
error that does not name the path. -/
def readSource (path : String) : IO Source := do
  try
    let content ← IO.FS.readBinFile path
    return .file content.toList
  catch
    | .noFileOrDirectory .. => return .missing
    | .inappropriateType (some _) .. => return .belowFile
    | .inappropriateType none .. => return .folder
    | .invalidArgument (some _) .. => return .tooLong
    | e => throw e

/-- Reads every path once, in order. -/
def readSources (paths : List String) : IO (String → Source) := do
  let found ← paths.mapM fun path => return (path, ← readSource path)
  return fun path => (found.lookup path).getD .missing

/-- Executes lines of standard input until it ends. -/
partial def interact (stdin stdout : IO.FS.Stream) (options : Options) (session : Session) :
    IO Unit := do
  stdout.putStr (options.prompt?.getD "")
  stdout.flush
  let raw ← stdin.getLine
  unless raw.isEmpty do
    let line := (raw.dropEndWhile '\n').copy
    let after := session.enter line
    stdout.putStrLn (after.display line after.output (!options.plain))
    interact stdin stdout options after

/-- Writes an outcome. -/
def finish (outcome : Outcome) : IO UInt32 := do
  IO.print outcome.stdout
  IO.eprint outcome.stderr
  return outcome.exitCode.toUInt32

/-- Runs the program. -/
def runProgram (arguments : List String) : IO UInt32 := do
  match Request.ofCommandLine arguments with
  | .ok (.run options) =>
    if options.files.isEmpty then
      interact (← IO.getStdin) (← IO.getStdout) options {}
      return 0
    else
      finish (Program.run (← readSources options.files) arguments)
  | _ => finish (Program.run (fun _ => .missing) arguments)

end StackLang

/-- The program. -/
def main (arguments : List String) : IO UInt32 := StackLang.runProgram arguments
