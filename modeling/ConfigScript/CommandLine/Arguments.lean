import ConfigScript.Interpretation.Context
import ConfigScript.Text.Split

/-!
# Arguments

What a command line asks for. Options stand before or behind the name of the command; the output
format may be given in both places, and then the one behind the name counts. Everything else may
be given once.
-/

namespace ConfigScript.CommandLine

inductive OutputFormat where
  | json
  | text
  | pretty
deriving DecidableEq, Repr

def OutputFormat.ofName? : String → Option OutputFormat
  | "json" => some .json
  | "text" => some .text
  | "pretty" => some .pretty
  | _ => none

/-- The schemas that a script is interpreted with. -/
structure SchemaSelection where
  kind : ScriptKind
  catalog : Option String
  registry : Option String
deriving DecidableEq, Repr

/-- What to do. A script is read from the standard input unless a file is given. -/
inductive Command where
  | parse (file : Option String)
  | schema (selection : SchemaSelection) (verbose : Bool)
  | resolve (file : Option String) (selection : SchemaSelection)
  | check (file : Option String) (selection : SchemaSelection)
deriving DecidableEq, Repr

inductive Request where
  | version
  | run (command : Command) (format : OutputFormat)
deriving DecidableEq, Repr

def SchemaSelection.paths (selection : SchemaSelection) : List String :=
  selection.registry.toList ++ selection.catalog.toList

/-- The paths at which a command reads. -/
def Command.paths : Command → List String
  | .parse file => file.toList
  | .schema selection _ => selection.paths
  | .resolve file selection => file.toList ++ selection.paths
  | .check file selection => file.toList ++ selection.paths

def Command.readsStdin : Command → Bool
  | .parse file => file.isNone
  | .schema _ _ => false
  | .resolve file _ => file.isNone
  | .check file _ => file.isNone

def Request.paths : Request → List String
  | .version => []
  | .run command _ => command.paths

def Request.readsStdin : Request → Bool
  | .version => false
  | .run command _ => command.readsStdin

/-- The options, of all commands. -/
inductive Flag where
  | format
  | version
  | file
  | kind
  | catalog
  | registry
  | verbose
deriving DecidableEq, Repr

namespace Flag

def long : Flag → String
  | .format => "format"
  | .version => "version"
  | .file => "file"
  | .kind => "kind"
  | .catalog => "catalog"
  | .registry => "registry"
  | .verbose => "verbose"

def short? : Flag → Option Char
  | .format => some 'o'
  | .version => some 'V'
  | .file => some 'f'
  | _ => none

def takesValue : Flag → Bool
  | .version => false
  | .verbose => false
  | _ => true

/-- Scripts of unknown kind have no schema to show or to resolve against. -/
def kind? : String → Option ScriptKind
  | "settings" => some .settings
  | "project" => some .project
  | _ => none

/-- Whether a text may be the value of an option. Paths are not empty. -/
def accepts (flag : Flag) (value : String) : Bool :=
  match flag with
  | .format => (OutputFormat.ofName? value).isSome
  | .kind => (kind? value).isSome
  | .version => false
  | .verbose => false
  | _ => !value.isEmpty

end Flag

/-- The options that have been given, each with its value. -/
abbrev Given := List (Flag × String)

/-- What a run of options ends with: a demand for the version, the end of the arguments, or another
argument and what follows it. -/
inductive Scan where
  | version
  | finished (given : Given)
  | stopped (given : Given) (argument : String) (rest : List String)
deriving DecidableEq, Repr

/-- An argument that is an option, with the value that is attached to it. -/
def option? (allowed : List Flag) (argument : String) : Option (Flag × Option String) :=
  match argument.toList with
  | '-' :: '-' :: cs =>
    let (name, value) :=
      match Text.cutAt? ['='] cs with
      | some (name, value) => (name, some (String.ofList value))
      | none => (cs, none)
    (allowed.find? (·.long == String.ofList name)).map (·, value)
  | '-' :: c :: cs => do
    let flag ← allowed.find? (·.short? == some c)
    let value := (Text.dropStart? ['='] cs).getD cs
    return (flag, if cs.isEmpty then none else some (String.ofList value))
  | _ => none

/-- A hyphen and more is an option; a single hyphen is a value. -/
def looksLikeOption (argument : String) : Bool :=
  match argument.toList with
  | '-' :: _ :: _ => true
  | _ => false

mutual

/-- Reads options up to the first argument that is none. It fails at an option that is not allowed,
given twice or without a proper value. -/
def scan (allowed : List Flag) (given : Given) : List String → Option Scan
  | [] => some (.finished given)
  | argument :: rest =>
    if argument = "--" then if rest.isEmpty then some (.finished given) else none
    else if !looksLikeOption argument then some (.stopped given argument rest)
    else
      match option? allowed argument with
      | none => none
      | some (.version, attached) =>
        if attached.isNone || !argument.startsWith "--" then some .version else none
      | some (flag, attached) =>
        if (given.lookup flag).isSome then none
        else
          match flag.takesValue, attached with
          | false, none => scan allowed ((flag, "") :: given) rest
          | false, some _ => none
          | true, none => scanValue allowed given flag rest
          | true, some value =>
            if flag.accepts value then scan allowed ((flag, value) :: given) rest else none

/-- Goes on behind an option whose value is the next argument. -/
def scanValue (allowed : List Flag) (given : Given) (flag : Flag) : List String → Option Scan
  | [] => none
  | value :: rest =>
    if flag.accepts value && !looksLikeOption value then
      scan allowed ((flag, value) :: given) rest
    else none

end

/-- The options of a command, if there is a command of that name. -/
def commandFlags? : String → Option (List Flag)
  | "parse" => some [.file, .format]
  | "schema" => some [.kind, .catalog, .registry, .verbose, .format]
  | "resolve" => some [.file, .kind, .catalog, .registry, .format]
  | "check" => some [.file, .kind, .catalog, .registry, .format]
  | _ => none

/-- The schemas that are asked for. Without an option the environment may name a catalog, and not
by the empty path. -/
def selection? (environment : Option String) (given : Given) : Option SchemaSelection := do
  let kind ← given.lookup .kind >>= Flag.kind?
  let catalog := given.lookup .catalog <|> environment
  if catalog = some "" then none
  return ⟨kind, catalog, given.lookup .registry⟩

def command? (environment : Option String) (name : String) (given : Given) : Option Command :=
  let file := given.lookup .file
  match name with
  | "parse" => some (.parse file)
  | "schema" => (selection? environment given).map (.schema · (given.lookup .verbose).isSome)
  | "resolve" => (selection? environment given).map (.resolve file)
  | "check" => (selection? environment given).map (.check file)
  | _ => none

/-- What the arguments ask for, where `environment` may name a catalog. -/
def Request.ofArguments? (environment : Option String) (arguments : List String) :
    Option Request := do
  match ← scan [.format, .version] [] arguments with
  | .version => return .version
  | .finished _ => none
  | .stopped before name rest =>
    match ← scan (← commandFlags? name) [] rest with
    | .finished behind =>
      let command ← command? environment name behind
      let format := (behind.lookup .format <|> before.lookup .format).bind OutputFormat.ofName?
      return .run command (format.getD .pretty)
    | _ => none

end ConfigScript.CommandLine
