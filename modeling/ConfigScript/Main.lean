import ConfigScript.CommandLine.Run

/-!
# The program

Takes what a request names from the disk and the standard input, carries the request out and
writes its output.
-/

namespace ConfigScript.CommandLine

/-- Why a file could not be read. -/
def readError : IO.Error → ReadError
  | .noFileOrDirectory .. => .notFound
  | .permissionDenied .. => .denied
  | .inappropriateType .. => .notDirectory
  | .invalidArgument _ 36 _ => .nameTooLong
  | error => .other (toString error)

/-- The file or directory at a path, with everything below it. -/
partial def readTree (path : String) : IO FileTree := do
  let place := (← IO.currentDir) / path
  if ← place.isDir then
    let entries ← place.readDir
    let entries ← entries.toList.mapM fun entry => do
      return (entry.fileName, ← readTree entry.path.toString)
    return .directory entries
  else
    return .file (← IO.FS.readBinFile place)

def readPath (path : String) : IO (String × Except ReadError FileTree) := do
  match ← (readTree path).toBaseIO with
  | .ok tree => return (path, .ok tree)
  | .error error => return (path, .error (readError error))

def readInputStream : IO (Except ReadError String) := do
  match ← (← IO.getStdin).readBinToEnd.toBaseIO with
  | .ok content => return (FileTree.file content).text
  | .error error => return .error (readError error)

/-- What a request reads. Nothing stands at a path that it does not name. -/
def readInputs (environment : Option String) (request : Option Request) : IO Inputs := do
  let files ← ((request.map Request.paths).getD []).mapM readPath
  let disk : Disk := fun path => (files.lookup path).getD (.error .notFound)
  let stdin ← if request.any Request.readsStdin then readInputStream else pure (.ok "")
  return ⟨disk, stdin, environment⟩

end ConfigScript.CommandLine

/-- Runs a command line. -/
def main (arguments : List String) : IO UInt32 := do
  let environment ← IO.getEnv "DCL_SCHEMA_DIR"
  let request := ConfigScript.CommandLine.Request.ofArguments? environment arguments
  let inputs ← ConfigScript.CommandLine.readInputs environment request
  let output := ConfigScript.CommandLine.run arguments inputs
  (← IO.getStdout).putStr output.stdout
  (← IO.getStderr).putStr output.stderr
  return output.code.toUInt32
