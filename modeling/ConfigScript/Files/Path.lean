import ConfigScript.Text.Split

/-!
# Paths

A path is a text of components separated by slashes. Empty components and those that are a single
dot name nothing of their own.
-/

namespace ConfigScript.Path

/-- The parts of a path between its slashes, empty ones included. -/
def parts (path : String) : List String :=
  (Text.segments '/' path.toList).map String.ofList

/-- The components of a path that lead from one directory to another. -/
def components (path : String) : List String :=
  (parts path).filter fun part => part ≠ "" ∧ part ≠ "."

/-- The name of what a path leads to; a path that ends by going up has none. -/
def fileName? (path : String) : Option String :=
  (components path).getLast?.filter (· ≠ "..")

/-- A name before and behind its last dot. A dot in front is no separator. -/
def splitName (name : String) : String × Option String :=
  match Text.cutAtLast? '.' name.toList with
  | some (c :: stem, suffix) => (String.ofList (c :: stem), some (String.ofList suffix))
  | _ => (name, none)

/-- The name of what a path leads to, without its extension. -/
def stem (path : String) : String :=
  match fileName? path with
  | some name => (splitName name).1
  | none => ""

/-- The path of an entry of a directory. -/
def join (directory name : String) : String :=
  if directory = "" ∨ directory.endsWith "/" then directory ++ name
  else directory ++ "/" ++ name

end ConfigScript.Path
