/-
Sysop/FileTree.lean

A directory with files and directories in it, and what a path leads to.

A path is walked name by name.  The empty name and `.` stay where they are, `..`
goes up, and every name but the last has to be a directory; so has the last one
if a slash follows it.  Above the working directory there is nothing to be found.
-/
import Sysop.Files
import Sysop.Text.Split

namespace Sysop

/-- A file with its bytes, or a directory with its named entries. -/
inductive FileNode
  | file (content : Bytes)
  | directory (entries : List (String × FileNode))

/-- The entries of the working directory. -/
abbrev FileTree := List (String × FileNode)

namespace FileTree

/-! ### Names -/

/-- The longest name that a directory can hold, in bytes. -/
def nameLimit : Nat := 255

/-- The length from which on a path is refused, in bytes. -/
def pathLimit : Nat := 4096

/-! ### Walking -/

/-- The place that a walk has reached: a node and the directories above it, the
nearest first. -/
structure Place where
  node : FileNode
  above : List (List (String × FileNode))

/-- The place one level up; above the outermost known directory lies an empty one. -/
def Place.up (p : Place) : Place :=
  match p.above with
  | [] => ⟨.directory [], []⟩
  | entries :: above => ⟨.directory entries, above⟩

/-- One name of a walk. -/
def Place.enter (p : Place) (name : String) : Except IoFault Place :=
  match p.node with
  | .file _ => .error .notDirectory
  | .directory entries =>
    if name = "" ∨ name = "." then .ok p
    else if name = ".." then .ok p.up
    else if nameLimit < name.utf8ByteSize then .error .nameTooLong
    else
      match entries.find? (·.1 = name) with
      | some (_, node) => .ok ⟨node, entries :: p.above⟩
      | none => .error .noEntry

/-- The place that the names lead to. -/
def walk (p : Place) : List String → Except IoFault Place
  | [] => .ok p
  | name :: rest =>
    match p.enter name with
    | .ok q => walk q rest
    | .error f => .error f

/-- Where a path starts: at the working directory, or at the root if a slash is
in front. -/
def start (tree : FileTree) (path : String) : Place :=
  if path.startsWith "/" then ⟨.directory [], []⟩ else ⟨.directory tree, []⟩

/-! ### Reading -/

/-- The bytes of the file that a path leads to. -/
def read (tree : FileTree) : Files := fun path =>
  if '\x00' ∈ path.toList then .error .nulInPath
  else if path = "" then .error .noEntry
  else if pathLimit ≤ path.utf8ByteSize then .error .nameTooLong
  else
    match walk (tree.start path) (Text.split '/' path) with
    | .error f => .error f
    | .ok ⟨.directory _, _⟩ => .error .isDirectory
    | .ok ⟨.file content, _⟩ => .ok content

end FileTree

end Sysop
