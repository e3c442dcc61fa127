import StackLang.Source.Basic
import StackLang.Text.Offset

/-!
# Folders

A tree of folders and files in memory, and what a path found in it leads to.  The parts of a path
are divided by slashes; an empty part and `.` stay in place and `..` goes back to the folder above.
Paths and names have a greatest length in bytes.  The length of a whole path is checked before it
is followed, the length of a name when it is looked up in a folder, so a path that fails earlier
fails for the earlier reason.  Nothing is known of what lies outside the tree.
-/

namespace StackLang

/-- A file or a folder. -/
inductive Node where
  | file (content : List UInt8)
  /-- A folder with its named entries.  Of two entries with one name the first one counts. -/
  | folder (entries : List (String × Node))

namespace Node

/-- A folder without entries. -/
def emptyFolder : Node := folder []

/-- The entries of a folder. -/
def entries : Node → List (String × Node)
  | file _ => []
  | folder entries => entries

/-- What a path that ends at this node leads to. -/
def source : Node → Source
  | file content => .file content
  | folder _ => .folder

/-- The parts of a path between its slashes. -/
def parts (path : String) : List String := (path.toList.splitOn '/').map String.ofList

/-- The greatest number of bytes in a path. -/
def maxPathBytes : Nat := 4095

/-- The greatest number of bytes in a name of a folder's entry. -/
def maxNameBytes : Nat := 255

/-- Whether a part of a path stays in the folder that is reached. -/
def staysInPlace (part : String) : Bool := part == "" || part == "."

/-- The names on the way down, the last one first, after one more part of a path. -/
def descend (trail : List String) (part : String) : List String :=
  if staysInPlace part then trail else if part = ".." then trail.tail else part :: trail

/-- The names that lead down to the end of a path: parts that stay in place are left out, and
`..` takes back the name in front of it. -/
def namesDown (path : String) : List String := ((parts path).foldl descend []).reverse

/-- Changes the node at the end of a list of names; folders on the way are made where they are
missing. -/
def update (change : Node → Node) : List String → Node → Node
  | [], node => change node
  | name :: rest, node =>
    let next := (node.entries.lookup name).getD emptyFolder
    folder ((name, update change rest next) :: node.entries)

/-- The tree with a file of the given content at a path. -/
def addFile (root : Node) (path : String) (content : List UInt8) : Node :=
  root.update (fun _ => file content) (namesDown path)

/-- The tree with a folder at a path. -/
def addFolder (root : Node) (path : String) : Node :=
  root.update (fun node => folder node.entries) (namesDown path)

/-- Follows the parts of a path from a node; `above` holds the folders on the way to it, the
nearest one first. -/
def follow (above : List Node) (node : Node) : List String → Source
  | [] => node.source
  | part :: rest =>
    match node with
    | file _ => .belowFile
    | folder entries =>
      if staysInPlace part then follow above node rest
      else if part = ".." then
        match above with
        | [] => follow [] emptyFolder rest
        | parent :: above => follow above parent rest
      else if maxNameBytes < Text.byteLength part.toList then .tooLong
      else
        match entries.lookup part with
        | none => .missing
        | some next => follow (node :: above) next rest

/-- What a path leads to, seen from the folder at the root of the tree.  A path that starts with a
slash starts outside the tree. -/
def find (root : Node) (path : String) : Source :=
  if maxPathBytes < Text.byteLength path.toList then .tooLong
  else if path.toList.head? = some '/' then follow [] emptyFolder (parts path)
  else follow [] root (parts path)

end Node

end StackLang
