import ConfigScript.Syntax.Span
import ConfigScript.TypeRef

/-!
# Diagnostics

What resolution reports about a script that was read without failure. A diagnostic has a cause and
a place; the cause decides the code under which it is known and the wording.
-/

namespace ConfigScript

inductive DiagnosticCode where
  | unresolvedReceiver
  | unresolvedProperty
  | unresolvedCall
  | ambiguousCall
  | unresolvedImport
  | ambiguousImport
  | unexpectedConfigureBlock
  | readOnlyProperty
  | typeMismatch
  | duplicateBinding
deriving DecidableEq, Repr

namespace DiagnosticCode

def name : DiagnosticCode → String
  | .unresolvedReceiver => "UnresolvedReceiver"
  | .unresolvedProperty => "UnresolvedProperty"
  | .unresolvedCall => "UnresolvedCall"
  | .ambiguousCall => "AmbiguousCall"
  | .unresolvedImport => "UnresolvedImport"
  | .ambiguousImport => "AmbiguousImport"
  | .unexpectedConfigureBlock => "UnexpectedConfigureBlock"
  | .readOnlyProperty => "ReadOnlyProperty"
  | .typeMismatch => "TypeMismatch"
  | .duplicateBinding => "DuplicateBinding"

/-- The code as it stands in messages. -/
def text : DiagnosticCode → String
  | .unresolvedReceiver => "unresolved-receiver"
  | .unresolvedProperty => "unresolved-property"
  | .unresolvedCall => "unresolved-call"
  | .ambiguousCall => "ambiguous-call"
  | .unresolvedImport => "unresolved-import"
  | .ambiguousImport => "ambiguous-import"
  | .unexpectedConfigureBlock => "unexpected-configure-block"
  | .readOnlyProperty => "read-only-property"
  | .typeMismatch => "type-mismatch"
  | .duplicateBinding => "duplicate-binding"

end DiagnosticCode

/-- Why a function does not accept a call. -/
inductive Mismatch where
  | unexpectedBlock
  | missingBlock
  | tooManyArguments
  | unknownArgument (name : String)
  | repeatedArgument (name : String)
  | missingArgument (name : String)
  | wrongType (parameter : String) (expected found : TypeRef)
deriving DecidableEq

def Mismatch.message : Mismatch → String
  | .unexpectedBlock => "it takes no configure block"
  | .missingBlock => "it requires a configure block"
  | .tooManyArguments => "too many arguments"
  | .unknownArgument name => "no parameter named '" ++ name ++ "'"
  | .repeatedArgument name => "parameter '" ++ name ++ "' is given more than once"
  | .missingArgument name => "missing argument for '" ++ name ++ "'"
  | .wrongType parameter expected found =>
    "argument '" ++ parameter ++ "' expects " ++ toString expected ++ ", found " ++ toString found

inductive Diagnostic.Cause where
  | unresolvedImport (name : String)
  | ambiguousImport (name : String) (existing : QualifiedName)
  | noReceiver
  | membersOfNull
  | unresolvedReference (name : String)
  | unresolvedTarget (name : String)
  | unresolvedProperty (name : String) (owner : TypeRef)
  | reassignedLocal (name : String)
  | readOnlyProperty (name : String)
  | typeMismatch (expected found : TypeRef)
  | duplicateLocal (name : String) (first : Span)
  | unresolvedFunction (name : String)
  /-- The only function of that name does not accept the call. -/
  | inapplicable (name : String) (mismatch : Mismatch)
  /-- None of several functions of that name accepts the call. -/
  | noneApplicable (name : String)
  | ambiguousCall (name : String) (count : Nat)
  | unexpectedBlock (name : String)
deriving DecidableEq

namespace Diagnostic.Cause

def code : Diagnostic.Cause → DiagnosticCode
  | .unresolvedImport _ => .unresolvedImport
  | .ambiguousImport _ _ => .ambiguousImport
  | .noReceiver => .unresolvedReceiver
  | .membersOfNull => .unresolvedReceiver
  | .unresolvedReference _ => .unresolvedProperty
  | .unresolvedTarget _ => .unresolvedProperty
  | .unresolvedProperty _ _ => .unresolvedProperty
  | .reassignedLocal _ => .readOnlyProperty
  | .readOnlyProperty _ => .readOnlyProperty
  | .typeMismatch _ _ => .typeMismatch
  | .duplicateLocal _ _ => .duplicateBinding
  | .unresolvedFunction _ => .unresolvedCall
  | .inapplicable _ _ => .unresolvedCall
  | .noneApplicable _ => .unresolvedCall
  | .ambiguousCall _ _ => .ambiguousCall
  | .unexpectedBlock _ => .unexpectedConfigureBlock

def message : Diagnostic.Cause → String
  | .unresolvedImport name => "unresolved import '" ++ name ++ "'"
  | .ambiguousImport name existing =>
    "import '" ++ name ++ "' conflicts with import '" ++ existing.text ++ "'"
  | .noReceiver => "'this' has no receiver here"
  | .membersOfNull => "'null' has no members"
  | .unresolvedReference name => "unresolved reference '" ++ name ++ "'"
  | .unresolvedTarget name => "unresolved property '" ++ name ++ "' on any receiver in scope"
  | .unresolvedProperty name owner =>
    "unresolved property '" ++ name ++ "' on " ++ toString owner
  | .reassignedLocal name => "'" ++ name ++ "' is a val and cannot be reassigned"
  | .readOnlyProperty name => "'" ++ name ++ "' is read-only and cannot be assigned"
  | .typeMismatch expected found =>
    "type mismatch: expected " ++ toString expected ++ ", found " ++ toString found
  | .duplicateLocal name _ => "'" ++ name ++ "' is already declared in this block"
  | .unresolvedFunction name => "unresolved function '" ++ name ++ "'"
  | .inapplicable name mismatch => "cannot call '" ++ name ++ "': " ++ mismatch.message
  | .noneApplicable name => "no applicable function '" ++ name ++ "'"
  | .ambiguousCall name count =>
    "call to '" ++ name ++ "' matches " ++ toString count ++ " functions"
  | .unexpectedBlock name => "'" ++ name ++ "' does not take a configure block"

/-- Notes on other places, each with its text. -/
def related : Diagnostic.Cause → List (String × Span)
  | .duplicateLocal _ first => [("first declared here", first)]
  | _ => []

end Diagnostic.Cause

structure Diagnostic where
  cause : Diagnostic.Cause
  span : Span
deriving DecidableEq

namespace Diagnostic

def code (diagnostic : Diagnostic) : DiagnosticCode :=
  diagnostic.cause.code

def message (diagnostic : Diagnostic) : String :=
  diagnostic.cause.message

/-- The place, the code and the message, as they are shown on one line. -/
def text (diagnostic : Diagnostic) : String :=
  diagnostic.span.place ++ ": [" ++ diagnostic.code.text ++ "] " ++ diagnostic.message

end Diagnostic

end ConfigScript
