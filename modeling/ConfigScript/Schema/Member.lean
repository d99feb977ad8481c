import ConfigScript.TypeRef

/-!
# Members

Properties and functions of host types, and the protocol by which a call interacts with the
objects it touches: it computes a value, changes its receiver, adds an element, or configures an
object that it reaches through an accessor.
-/

namespace ConfigScript

structure Property where
  name : String
  type : TypeRef
  readOnly : Bool
  hasDefault : Bool
deriving DecidableEq

namespace Property

/-- A writable property without a default. -/
def plain (name : String) (type : TypeRef) : Property :=
  ⟨name, type, false, false⟩

def asReadOnly (property : Property) : Property :=
  { property with readOnly := true }

end Property

/-- What happens to an argument when its call is evaluated. -/
inductive Parameter.Role where
  | storeIn (property : Property)
  | unknown
deriving DecidableEq

structure Parameter where
  name : String
  type : TypeRef
  optional : Bool
  role : Parameter.Role
deriving DecidableEq

namespace Parameter

/-- A required parameter whose argument is stored nowhere. -/
def plain (name : String) (type : TypeRef) : Parameter :=
  ⟨name, type, false, .unknown⟩

def storedIn (parameter : Parameter) (property : Property) : Parameter :=
  { parameter with role := .storeIn property }

def asOptional (parameter : Parameter) : Parameter :=
  { parameter with optional := true }

end Parameter

/-- What a configuring call returns. -/
inductive ReturnKind where
  | unit
  | configuredObject
deriving DecidableEq, Repr

/-- How a configuring call reaches the object that it configures. -/
inductive Accessor where
  | property (property : Property)
  | custom (objectType : TypeRef) (identifier : String)
deriving DecidableEq

def Accessor.objectType : Accessor → TypeRef
  | .property configured => configured.type
  | .custom type _ => type

/-- Whether a block may or must follow a call. -/
inductive BlockRequirement where
  | notAllowed
  | optional
  | required
deriving DecidableEq, Repr

inductive Semantics where
  | pure (returnType : TypeRef)
  | builder (returnType : TypeRef)
  | addAndConfigure (elementType : TypeRef) (acceptsBlock : Bool)
  | accessAndConfigure (accessor : Accessor) (returns : ReturnKind)
deriving DecidableEq

namespace Semantics

/-- The type of the value of a call. -/
def returnType : Semantics → TypeRef
  | .pure type => type
  | .builder type => type
  | .addAndConfigure elementType _ => elementType
  | .accessAndConfigure _ .unit => .unit
  | .accessAndConfigure accessor .configuredObject => accessor.objectType

/-- The type of the receiver inside the block behind a call, when a block may follow. -/
def configuredType? : Semantics → Option TypeRef
  | .addAndConfigure elementType true => some elementType
  | .accessAndConfigure accessor _ => some accessor.objectType
  | _ => none

def blockRequirement : Semantics → BlockRequirement
  | .pure _ => .notAllowed
  | .builder _ => .notAllowed
  | .addAndConfigure _ acceptsBlock => if acceptsBlock then .optional else .notAllowed
  | .accessAndConfigure _ _ => .required

def kindName : Semantics → String
  | .pure _ => "pure"
  | .builder _ => "builder"
  | .addAndConfigure _ _ => "add-and-configure"
  | .accessAndConfigure _ _ => "access-and-configure"

end Semantics

structure MemberFunction where
  receiver : QualifiedName
  name : String
  parameters : List Parameter
  semantics : Semantics
deriving DecidableEq

/-- A function that is called without a receiver once its name is imported. -/
structure ExternalFunction where
  name : QualifiedName
  parameters : List Parameter
  semantics : Semantics
deriving DecidableEq

structure Constructor where
  parameters : List Parameter
deriving DecidableEq

end ConfigScript
