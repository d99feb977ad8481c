import ConfigScript.TypeRef

/-!
# Why a catalog yields no schema

Types that nobody declares are reported together, each with the links that lead to it. Every other
fault is reported alone, the first one met.
-/

namespace ConfigScript

/-- One step on the way from a schema's roots to a type. -/
inductive Link where
  | function (package name : String)
  | object (name : String)
  | member (owner : QualifiedName) (name : String)
  | supertype (sub sup : QualifiedName)
deriving DecidableEq

def Link.text : Link → String
  | .function package name => package ++ "." ++ name
  | .object name => name
  | .member owner name => owner.text ++ "." ++ name
  | .supertype sub sup => sub.text ++ ": " ++ sup.text

/-- A type that no catalog entry declares; the chain lists the links to it, outermost first. -/
structure UnresolvedType where
  name : QualifiedName
  chain : List Link
deriving DecidableEq

def UnresolvedType.message (unresolved : UnresolvedType) : String :=
  if unresolved.chain.isEmpty then unresolved.name.text ++ " (top-level receiver)"
  else
    unresolved.name.text ++ " (via " ++ " -> ".intercalate (unresolved.chain.map Link.text) ++ ")"

/-- What is wrong with the declaration of a function. -/
inductive FunctionFault where
  | topLevelNotPure
  | pureWithBlock
  | builderWithBlock
  | builderReturn
  | addingWithoutElement
  | addingNonClass
  | blockOfOtherElement
  | configuringWithoutBlock
  | propertyOfOtherType
  | configuringReturn
  | blockNotLast
  | blockOfNonClass
  | storedElsewhere (parameter : String) (type : TypeRef) (property : String)
      (propertyType : TypeRef)
deriving DecidableEq

def FunctionFault.message : FunctionFault → String
  | .topLevelNotPure => "top-level functions must be pure"
  | .pureWithBlock => "pure functions cannot take a configure block"
  | .builderWithBlock => "builder functions cannot take a configure block"
  | .builderReturn => "builder functions must return their receiver type"
  | .addingWithoutElement => "adding functions must declare the element type they return"
  | .addingNonClass => "adding functions must return a class type"
  | .blockOfOtherElement => "the configure block must configure the added element"
  | .configuringWithoutBlock => "configuring functions require a configure block parameter"
  | .propertyOfOtherType => "configured property type does not match the configure block"
  | .configuringReturn => "configuring functions return Unit or the configured object"
  | .blockNotLast => "the configure block parameter must be last"
  | .blockOfNonClass => "a configure block must configure a class type"
  | .storedElsewhere parameter type property propertyType =>
    "parameter '" ++ parameter ++ "' of type " ++ toString type ++ " cannot be stored in '" ++
      property ++ "' of type " ++ toString propertyType

inductive BuildError where
  | unresolvedTypes (unresolved : List UnresolvedType)
  | duplicateType (name : String)
  | invalidName (invalid : InvalidName)
  | invalidFunction (function : String) (fault : FunctionFault)
  | unknownProperty (function owner property : String)
  | unknownDefaultImport (name : String)
deriving DecidableEq

def BuildError.message : BuildError → String
  | .unresolvedTypes unresolved =>
    "unresolved type references: " ++ ", ".intercalate (unresolved.map UnresolvedType.message)
  | .duplicateType name => "type '" ++ name ++ "' is declared more than once"
  | .invalidName invalid => invalid.message
  | .invalidFunction function fault => "function '" ++ function ++ "': " ++ fault.message
  | .unknownProperty function owner property =>
    "function '" ++ function ++ "' refers to unknown property '" ++ property ++ "' of '" ++
      owner ++ "'"
  | .unknownDefaultImport name =>
    "default import '" ++ name ++ "' does not name a type, function or object of the schema"

end ConfigScript
