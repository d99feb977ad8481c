import ConfigScript.Files.Path

/-!
# Files

A file tree is a file with its bytes or a directory with named entries. A disk tells what stands
at a path, or why nothing can be read there. Outside of the tree that a path starts from there are
directories, in which nothing is found.
-/

namespace ConfigScript

inductive FileTree where
  | file (content : ByteArray)
  | directory (entries : List (String × FileTree))

/-- Why nothing can be read at a path. -/
inductive ReadError where
  | notFound
  | denied
  | notDirectory
  | isDirectory
  | notText
  | nameTooLong
  | nullInName
  | other (description : String)
deriving DecidableEq, Repr

def ReadError.message : ReadError → String
  | .notFound => "No such file or directory (os error 2)"
  | .denied => "Permission denied (os error 13)"
  | .notDirectory => "Not a directory (os error 20)"
  | .isDirectory => "Is a directory (os error 21)"
  | .notText => "stream did not contain valid UTF-8"
  | .nameTooLong => "File name too long (os error 36)"
  | .nullInName => "file name contained an unexpected NUL byte"
  | .other description => description

namespace FileTree

/-- The text of a file, which must be valid UTF-8. -/
def text : FileTree → Except ReadError String
  | .directory _ => .error .isDirectory
  | .file content =>
    match String.fromUTF8? content with
    | some text => .ok text
    | none => .error .notText

/-- Follows the parts of a path from a place; the directories above it are listed nearest first.
Only a directory has parts below it, be they empty. A name has at most 255 bytes. -/
def walk : List FileTree → FileTree → List String → Except ReadError FileTree
  | _, here, [] => .ok here
  | _, .file _, _ :: _ => .error .notDirectory
  | above, .directory entries, part :: parts =>
    if part = "" ∨ part = "." then walk above (.directory entries) parts
    else if part = ".." then
      match above with
      | [] => walk [] (.directory []) parts
      | parent :: above => walk above parent parts
    else if 255 < part.utf8ByteSize then .error .nameTooLong
    else
      match entries.lookup part with
      | some next => walk (.directory entries :: above) next parts
      | none => .error .notFound

/-- What stands at a path, relative to a directory unless it starts with a slash. A path has less
than 4096 bytes, and no null character. -/
def find (root : FileTree) (path : String) : Except ReadError FileTree :=
  if '\x00' ∈ path.toList then .error .nullInName
  else if path = "" then .error .notFound
  else if 4096 ≤ path.utf8ByteSize then .error .nameTooLong
  else walk [] (if path.startsWith "/" then .directory [] else root) (Path.parts path)

end FileTree

/-- What stands at each path. -/
abbrev Disk := String → Except ReadError FileTree

namespace Disk

def readText (disk : Disk) (path : String) : Except ReadError String := do
  (← disk path).text

def isDirectory (disk : Disk) (path : String) : Bool :=
  match disk path with
  | .ok (.directory _) => true
  | _ => false

end Disk

end ConfigScript
