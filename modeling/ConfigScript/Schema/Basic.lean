import ConfigScript.NameMap
import ConfigScript.NameSet
import ConfigScript.Reach
import ConfigScript.Schema.LambdaStyle
import ConfigScript.Schema.Member

/-!
# Schemas

A schema is the closed set of classes, functions and objects that a script of one kind may use. Its
receiver is the class of the implicit object at the top of the script.
-/

namespace ConfigScript

structure DataClass where
  name : QualifiedName
  supertypes : NameSet
  properties : List Property
  functions : List MemberFunction
  constructors : List Constructor
deriving DecidableEq

namespace DataClass

def property? (dataClass : DataClass) (name : String) : Option Property :=
  dataClass.properties.find? (·.name == name)

def functionsNamed (dataClass : DataClass) (name : String) : List MemberFunction :=
  dataClass.functions.filter (·.name == name)

def hasFunction (dataClass : DataClass) (name : String) : Bool :=
  dataClass.functions.any (·.name == name)

end DataClass

structure Schema where
  receiver : QualifiedName
  classes : NameMap DataClass
  functions : NameMap ExternalFunction
  objects : NameMap TypeRef
  defaultImports : NameSet
  lambdaStyle : LambdaStyle
deriving DecidableEq

namespace Schema

def topLevelClass? (schema : Schema) : Option DataClass :=
  schema.classes.find? schema.receiver

/-- Whether a name is that of a class, a function or an object. -/
def declares (schema : Schema) (name : QualifiedName) : Bool :=
  schema.classes.contains name || schema.functions.contains name || schema.objects.contains name

/-- The supertypes that a class declares; a name without a class has none. -/
def supertypesOf (schema : Schema) (name : QualifiedName) : List QualifiedName :=
  match schema.classes.find? name with
  | some dataClass => dataClass.supertypes.names
  | none => []

def supertypeCount (schema : Schema) : Nat :=
  (schema.classes.values.flatMap fun dataClass => dataClass.supertypes.names).length

/-- Whether `sup` is `sub` or can be reached from it over declared supertypes. -/
def isSubtype (schema : Schema) (sub sup : QualifiedName) : Bool :=
  (reachFrom schema.supertypesOf schema.supertypeCount sub).contains sup

/-- Whether a value of type `source` may be stored where `target` is expected: the types are the
same, or a 32-bit integer meets a 64-bit one, or `null` meets a class, or the source is a subclass
of the target. -/
def isAssignable (schema : Schema) (target source : TypeRef) : Bool :=
  if target = source then true
  else match target, source with
    | .constant .long, .constant .int => true
    | .named _, .null => true
    | .named target, .named source => schema.isSubtype source target
    | _, _ => false

end Schema

end ConfigScript
