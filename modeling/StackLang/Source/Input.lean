import StackLang.Source.Basic

/-!
# Input from files

The lines that a list of paths supplies, in order, up to the first thing that cannot be read.
-/

namespace StackLang

/-- Why the input ended early. -/
inductive ReadFailure where
  | notFound (path : String)
  | notFolder (path : String)
  | nameTooLong (path : String)
  | isFolder
  | notText
  deriving DecidableEq

/-- The text shown for a failure. -/
def ReadFailure.message : ReadFailure → String
  | .notFound path => path ++ ": No such file or directory (os error 2)"
  | .notFolder path => path ++ ": Not a directory (os error 20)"
  | .nameTooLong path => path ++ ": File name too long (os error 36)"
  | .isFolder => "Is a directory (os error 21)"
  | .notText => "stream did not contain valid UTF-8"

/-- Lines of text, and what prevented more of them from being read. -/
structure Input where
  lines : List String
  failure? : Option ReadFailure
  deriving DecidableEq

namespace Input

/-- No lines, and nothing that failed. -/
def empty : Input := ⟨[], none⟩

/-- No lines because of a failure. -/
def failed (failure : ReadFailure) : Input := ⟨[], some failure⟩

/-- One more line in front. -/
def cons (line : String) (input : Input) : Input := { input with lines := line :: input.lines }

/-- One input behind another, which is not reached when the first one fails. -/
def append (first second : Input) : Input :=
  match first.failure? with
  | some _ => first
  | none => ⟨first.lines ++ second.lines, second.failure?⟩

/-- The texts of raw lines, up to the first that is not UTF-8. -/
def ofRawLines : List (List UInt8) → Input
  | [] => empty
  | raw :: rest =>
    match Source.lineText? raw with
    | some line => cons line (ofRawLines rest)
    | none => failed .notText

/-- The lines of what is found at a path. -/
def ofSource (path : String) : Source → Input
  | .missing => failed (.notFound path)
  | .belowFile => failed (.notFolder path)
  | .tooLong => failed (.nameTooLong path)
  | .folder => failed .isFolder
  | .file content => ofRawLines (Source.rawLines content)

/-- The lines of several paths. -/
def ofPaths (read : String → Source) : List String → Input
  | [] => empty
  | path :: rest => (ofSource path (read path)).append (ofPaths read rest)

/-- Nothing in front of an input adds nothing. -/
@[simp] theorem empty_append (input : Input) : empty.append input = input := rfl

/-- Nothing behind an input adds nothing. -/
@[simp] theorem append_empty (input : Input) : input.append empty = input := by
  obtain ⟨lines, _ | failure⟩ := input <;> simp [append, empty]

/-- It does not matter which inputs are joined first. -/
theorem append_assoc (a b c : Input) : (a.append b).append c = a.append (b.append c) := by
  obtain ⟨as, _ | f⟩ := a
  · obtain ⟨bs, _ | g⟩ := b <;> simp [append]
  · simp [append]

/-- The texts of raw lines behind one another are read like two inputs behind one another. -/
theorem ofRawLines_append (first second : List (List UInt8)) :
    ofRawLines (first ++ second) = (ofRawLines first).append (ofRawLines second) := by
  induction first with
  | nil => rfl
  | cons raw first ih =>
    simp only [List.cons_append, ofRawLines]
    cases Source.lineText? raw with
    | none => simp [failed, append]
    | some line =>
      simp only [ih]
      obtain ⟨lines, _ | f⟩ := ofRawLines first <;> simp [cons, append]

end Input

end StackLang
