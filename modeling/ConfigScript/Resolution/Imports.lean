import ConfigScript.Resolution.Diagnostic
import ConfigScript.Schema.Basic
import ConfigScript.Syntax.Tree

/-!
# Visible names

An import makes an entity of the schema visible under its simple name. Of two imports with one
simple name the first one stands, and a default import gives way to any import of the script.
-/

namespace ConfigScript

/-- The names that a script imports, in order and no two with one simple name, and the default
imports of its schema. -/
structure Imports where
  explicit : List QualifiedName
  defaults : List QualifiedName

/-- Whether imports that the schema does not declare are reported or passed over. -/
inductive UndeclaredImports where
  | reported
  | ignored
deriving DecidableEq, Repr

namespace Imports

def ofDefaults (defaults : NameSet) : Imports :=
  ⟨[], defaults.names⟩

def named (names : List QualifiedName) (simpleName : String) : Option QualifiedName :=
  names.find? (·.simpleName == simpleName)

/-- The entity that a simple name makes visible. -/
def find? (imports : Imports) (simpleName : String) : Option QualifiedName :=
  named imports.explicit simpleName <|> named imports.defaults simpleName

/-- Adds an import, unless another one has its simple name. -/
def add (imports : Imports) (name : QualifiedName) : Except QualifiedName Imports :=
  match named imports.explicit name.simpleName with
  | none => .ok { imports with explicit := imports.explicit ++ [name] }
  | some existing => if existing = name then .ok imports else .error existing

end Imports

/-- The entity that an import means, when the schema declares it. -/
def Schema.imported? (schema : Schema) (parts : List String) : Option QualifiedName :=
  match QualifiedName.ofParts parts with
  | .ok name => if schema.declares name then some name else none
  | .error _ => none

/-- The name of an import as the script spells it. -/
def importText (parts : List String) : String :=
  ".".intercalate parts

namespace Imports

/-- Takes up one import of a script. -/
def register (schema : Schema) (undeclared : UndeclaredImports) (imports : Imports)
    (parts : List String) (span : Span) : Imports × List Diagnostic :=
  match schema.imported? parts with
  | none =>
    match undeclared with
    | .reported => (imports, [⟨.unresolvedImport (importText parts), span⟩])
    | .ignored => (imports, [])
  | some name =>
    match imports.add name with
    | .ok imports => (imports, [])
    | .error existing => (imports, [⟨.ambiguousImport (importText parts) existing, span⟩])

def registerAll (schema : Schema) (undeclared : UndeclaredImports) :
    Imports → List (List String × Span) → Imports × List Diagnostic
  | imports, [] => (imports, [])
  | imports, (parts, span) :: rest =>
    let (imports, diagnostics) := imports.register schema undeclared parts span
    let (imports, later) := registerAll schema undeclared imports rest
    (imports, diagnostics ++ later)

end Imports

/-- The imports of a block that none of the schemas declares. -/
def Block.undeclaredImports (block : Block) (schemas : List Schema) : List Diagnostic :=
  block.imports.filterMap fun (parts, span) =>
    if schemas.any fun schema => (schema.imported? parts).isSome then none
    else some ⟨.unresolvedImport (importText parts), span⟩

end ConfigScript
