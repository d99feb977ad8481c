/-!
# Script contexts

What kind of script is interpreted, and for what: a settings script comes with the settings that
it belongs to, a project script with its project. Any other script is not declarative.
-/

namespace ConfigScript

inductive ScriptKind where
  | unknown
  | settings
  | project
deriving DecidableEq, Repr

namespace ScriptKind

def name : ScriptKind → String
  | .unknown => "unknown"
  | .settings => "settings"
  | .project => "project"

def ofName? : String → Option ScriptKind
  | "unknown" => some .unknown
  | "settings" => some .settings
  | "project" => some .project
  | _ => none

end ScriptKind

/-- What a script is interpreted for. -/
inductive Payload where
  | settings (displayName : String)
  | project (path : String)
deriving DecidableEq, Repr

/-- The kind of script that a payload is meant for. -/
def Payload.kind : Payload → ScriptKind
  | .settings _ => .settings
  | .project _ => .project

structure ScriptContext where
  kind : ScriptKind
  payload : Option Payload
deriving DecidableEq, Repr

/-- The name by which reports know the script. -/
def ScriptContext.label (context : ScriptContext) : String :=
  match context.payload with
  | some (.settings displayName) => displayName
  | some (.project path) => "project '" ++ path ++ "'"
  | none => context.kind.name

end ConfigScript
