/-!
# Sources and their lines

A path leads to a file of bytes, to a folder, or to nothing.  The content of a file is divided into
raw lines, each of which ends with a line feed except possibly the last one.  The text of a raw
line is what is left when its ending, a line feed with at most one carriage return in front of it,
is taken off and the bytes are read as UTF-8.
-/

namespace StackLang

/-- What is found at a path. -/
inductive Source where
  /-- There is nothing. -/
  | missing
  /-- The path goes on below a file. -/
  | belowFile
  /-- The path, or a name in it, has more bytes than a path or a name can have. -/
  | tooLong
  | folder
  | file (content : List UInt8)
  deriving DecidableEq

namespace Source

/-- The byte that ends a line. -/
def lineFeed : UInt8 := 0x0A

/-- The byte that may stand in front of a line feed. -/
def carriageReturn : UInt8 := 0x0D

/-- The raw lines of a content, with their endings.  No raw line is empty. -/
def rawLines : List UInt8 → List (List UInt8)
  | [] => []
  | b :: bs =>
    if b = lineFeed then [b] :: rawLines bs
    else
      match rawLines bs with
      | [] => [[b]]
      | line :: rest => (b :: line) :: rest

/-- A raw line without its ending.  A carriage return stays when no line feed follows it. -/
def chomp : List UInt8 → List UInt8
  | [] => []
  | b :: bs =>
    if b :: bs = [lineFeed] ∨ b :: bs = [carriageReturn, lineFeed] then []
    else b :: chomp bs

/-- The text of a raw line, if its bytes are UTF-8. -/
def lineText? (raw : List UInt8) : Option String := String.fromUTF8? (chomp raw).toByteArray

/-- An empty content has no lines. -/
@[simp] theorem rawLines_nil : rawLines [] = [] := rfl

/-- A line feed in front is a line of its own. -/
theorem rawLines_cons_lineFeed (bs : List UInt8) :
    rawLines (lineFeed :: bs) = [lineFeed] :: rawLines bs := by
  simp [rawLines]

/-- The raw lines, one behind the other, are the content. -/
theorem flatten_rawLines (content : List UInt8) : (rawLines content).flatten = content := by
  induction content with
  | nil => rfl
  | cons b bs ih =>
    unfold rawLines
    split
    · simp [ih]
    · split
      · next h => simp [h] at ih; simp [← ih]
      · next h => rw [h] at ih; simp [← ih]

end Source

end StackLang
