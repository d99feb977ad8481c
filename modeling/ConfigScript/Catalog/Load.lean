import ConfigScript.Catalog.Bundled
import ConfigScript.Catalog.Codec
import ConfigScript.Files.FileTree
import ConfigScript.Yaml.Basic

/-!
# Loading catalogs

A catalog is loaded from one document, or from all documents in and below a directory, merged in
the order of their paths. The same documents may declare software types.
-/

namespace ConfigScript

inductive LoadError where
  | unreadable (path : String) (reason : ReadError)
  | malformed (path : String)
  | duplicateType (name : String)
  /-- A function that configures nothing names what it configures. -/
  | misplacedAccess (owner function : String)
  /-- A function names both a property and an accessor. -/
  | conflictingAccess (owner function : String)
  | unnamedSoftwareType (model : String)
  | duplicateSoftwareType (name : String)
deriving DecidableEq, Repr

namespace LoadError

def message : LoadError → String
  | .unreadable path _ => "Failed to read " ++ path
  | .malformed path => "Failed to parse " ++ path
  | .duplicateType name => "Duplicate type: " ++ name
  | .misplacedAccess owner function =>
    owner ++ "." ++ function ++
      ": only configuring functions name a configured property or accessor"
  | .conflictingAccess owner function =>
    owner ++ "." ++ function ++ ": 'configures' and 'accessor' are mutually exclusive"
  | .unnamedSoftwareType model => "Software type for model " ++ model ++ " has an empty name"
  | .duplicateSoftwareType name => "Duplicate software type: " ++ name

/-- The message with the reason behind it. -/
def detail (error : LoadError) : String :=
  match error with
  | .unreadable _ reason => error.message ++ ": " ++ reason.message
  | _ => error.message

end LoadError

namespace FileTree

/-- Whether a file in a directory is a document, by the extension of its name. -/
def isDocumentName (name : String) : Bool :=
  match (Path.splitName name).2 with
  | some suffix => suffix == "yaml" || suffix == "yml"
  | none => false

mutual

/-- The documents in and below what stands at a path, in the order of their paths. Names that start
with an underscore are passed over. -/
def documents (path name : String) : FileTree → List (String × FileTree)
  | .file content => if isDocumentName name then [(path, .file content)] else []
  | .directory entries =>
    ((documentsBelow path entries).mergeSort fun a b => a.1 ≤ b.1).flatMap Prod.snd

/-- For each entry of a directory its name and the documents that it holds. -/
def documentsBelow (path : String) :
    List (String × FileTree) → List (String × List (String × FileTree))
  | [] => []
  | (name, tree) :: entries =>
    if name.startsWith "_" then documentsBelow path entries
    else (name, tree.documents (Path.join path name) name) :: documentsBelow path entries

end

end FileTree

/-- The files from which a catalog is loaded: those of a directory, or the file at the path itself,
whatever its name. -/
def Disk.documents (disk : Disk) (path : String) : List (String × Except ReadError FileTree) :=
  match disk path with
  | .ok (.directory entries) =>
    ((FileTree.directory entries).documents path "").map fun (path, file) => (path, .ok file)
  | result => [(path, result)]

/-- Reads all documents at a path in the same way. -/
def Disk.readDocuments {α : Type} (disk : Disk) (ofDocument? : Yaml → Option α) (path : String) :
    Except LoadError (List α) :=
  (disk.documents path).mapM fun (path, file) =>
    match file >>= FileTree.text with
    | .error reason => .error (.unreadable path reason)
    | .ok text =>
      match Yaml.parse text >>= ofDocument? with
      | some value => .ok value
      | none => .error (.malformed path)

namespace Catalog

def checkFunction (owner : String) (function : FunctionDecl) : Except LoadError Unit :=
  if function.kind ≠ .configuring ∧ (function.configures.isSome ∨ function.accessor.isSome) then
    .error (.misplacedAccess owner function.name)
  else if function.configures.isSome ∧ function.accessor.isSome then
    .error (.conflictingAccess owner function.name)
  else .ok ()

/-- Checks types in order, behind types with the names `seen`. -/
def checkTypes : List String → List TypeDecl → Except LoadError Unit
  | _, [] => .ok ()
  | seen, type :: types => do
    if type.name ∈ seen then throw (.duplicateType type.name)
    type.functions.forM (checkFunction type.name)
    checkTypes (type.name :: seen) types

/-- Loads the catalog at a path. -/
def load (disk : Disk) (path : String) : Except LoadError Catalog := do
  let catalog := mergeAll (← disk.readDocuments ofDocument? path)
  checkTypes [] catalog.types
  return catalog

end Catalog

namespace Registry

/-- Checks software types in order, behind others with the names `seen`. -/
def checkSoftwareTypes : List String → List SoftwareType → Except LoadError Unit
  | _, [] => .ok ()
  | seen, type :: types => do
    if type.name.isEmpty then throw (.unnamedSoftwareType type.model)
    if type.name ∈ seen then throw (.duplicateSoftwareType type.name)
    checkSoftwareTypes (type.name :: seen) types

/-- Loads the software types that are declared at a path. -/
def load (disk : Disk) (path : String) : Except LoadError Registry := do
  let registry := mergeAll (← disk.readDocuments ofDocument? path)
  checkSoftwareTypes [] registry.softwareTypes
  return registry

end Registry

/-- Where a catalog comes from. -/
inductive CatalogSource where
  | path (text : String)
  | bundled
deriving DecidableEq, Repr

namespace CatalogSource

/-- The path that the environment names, else the directory `schemas` if there is one, else the
bundled catalogs. -/
def ofEnvironment (disk : Disk) : Option String → CatalogSource
  | some text => .path text
  | none => if disk.isDirectory "schemas" then .path "schemas" else .bundled

/-- The bundled documents are taken in the order of their names. -/
def loadCatalog (disk : Disk) : CatalogSource → Except LoadError Catalog
  | .path text => Catalog.load disk text
  | .bundled => .ok (.mergeAll [Bundled.plugins, Bundled.project, Bundled.settings])

def loadRegistry (disk : Disk) : CatalogSource → Except LoadError Registry
  | .path text => Registry.load disk text
  | .bundled => .ok .empty

end CatalogSource

end ConfigScript
