import ConfigScript.Schema.Basic
import ConfigScript.Schema.Reachable

/-!
# Building schemas

A schema is built from a catalog and the name of its receiver. Every class lists the members of
its whole lineage; of two members with the same name or signature the nearer one stands. Functions
are checked against the protocol of their kind, and what they store or configure must be a
property of their target with the same type.
-/

namespace ConfigScript

def PropertyDecl.toProperty (decl : PropertyDecl) : Except BuildError Property := do
  return ⟨decl.name, ← buildName (TypeRef.parse decl.type), decl.readOnly, decl.hasDefault⟩

/-- The name and the parameter types of a function, as they are spelled. -/
def FunctionDecl.signature (decl : FunctionDecl) : String × List String :=
  (decl.name, decl.parameters.map (·.type))

def optionalType (text : Option String) : Except BuildError (Option TypeRef) :=
  match text with
  | none => .ok none
  | some text => some <$> buildName (TypeRef.parse text)

namespace Declarations

/-- The property that the lineage of a class has under a name. -/
def property? (declarations : Declarations) (owner : QualifiedName) (name : String) :
    Except BuildError (Option Property) :=
  match (declarations.lineage owner).findSome? fun (_, decl) =>
      decl.properties.find? (·.name == name) with
  | none => .ok none
  | some decl => some <$> decl.toProperty

/-- The value parameters of a function and the type that its block configures, when its last
parameter is a block. -/
def splitBlock (declarations : Declarations) (function : String) :
    List ParameterDecl → Except BuildError (List ParameterDecl × Option TypeRef)
  | [] => .ok ([], none)
  | parameter :: parameters =>
    match declarations.style.configuredType? parameter.type with
    | none => do
      let (values, configured) ← declarations.splitBlock function parameters
      return (parameter :: values, configured)
    | some text =>
      if !parameters.isEmpty then .error (.invalidFunction function .blockNotLast)
      else do
        let type ← buildName (TypeRef.parse text)
        if type.className?.isNone then throw (.invalidFunction function .blockOfNonClass)
        return ([], some type)

/-- A parameter of a function whose arguments are stored in properties of `target`. -/
def parameter (declarations : Declarations) (function : String) (target : Option QualifiedName)
    (decl : ParameterDecl) : Except BuildError Parameter := do
  let type ← buildName (TypeRef.parse decl.type)
  match decl.stores with
  | none => return ⟨decl.name, type, decl.optional, .unknown⟩
  | some stored =>
    let some owner := target | throw (.unknownProperty function "<none>" stored)
    let some property ← declarations.property? owner stored
      | throw (.unknownProperty function owner.text stored)
    if property.type ≠ type then
      throw (.invalidFunction function
        (.storedElsewhere decl.name type property.name property.type))
    return ⟨decl.name, type, decl.optional, .storeIn property⟩

/-- The protocol of a member function of `receiver`, whose block configures `configured`. -/
def semantics (declarations : Declarations) (receiver : QualifiedName) (function : String)
    (decl : FunctionDecl) (configured returns : Option TypeRef) : Except BuildError Semantics := do
  match decl.kind with
  | .pure =>
    if configured.isSome then throw (.invalidFunction function .pureWithBlock)
    return .pure (returns.getD .unit)
  | .builder =>
    if configured.isSome then throw (.invalidFunction function .builderWithBlock)
    -- An inherited builder may return the supertype on which it was declared.
    let inLineage (type : TypeRef) : Bool :=
      (declarations.lineage receiver).any fun (above, _) => type == .named above
    if returns.any (!inLineage ·) then throw (.invalidFunction function .builderReturn)
    return .builder (.named receiver)
  | .adding =>
    let some element := returns | throw (.invalidFunction function .addingWithoutElement)
    if element.className?.isNone then throw (.invalidFunction function .addingNonClass)
    if configured.any (· ≠ element) then throw (.invalidFunction function .blockOfOtherElement)
    return .addAndConfigure element configured.isSome
  | .configuring =>
    let some object := configured | throw (.invalidFunction function .configuringWithoutBlock)
    let accessor ←
      match decl.configures with
      | none => pure (Accessor.custom object (decl.accessor.getD function))
      | some name =>
        let some property ← declarations.property? receiver name
          | throw (.unknownProperty function receiver.text name)
        if property.type ≠ object then throw (.invalidFunction function .propertyOfOtherType)
        pure (.property property)
    match returns with
    | none => return .accessAndConfigure accessor .unit
    | some type =>
      if type = .unit then return .accessAndConfigure accessor .unit
      else if type = object then return .accessAndConfigure accessor .configuredObject
      else throw (.invalidFunction function .configuringReturn)

/-- The class whose properties receive the arguments of a member function of `receiver`. -/
def storageTarget (receiver : QualifiedName) : Semantics → Option QualifiedName
  | .pure _ => some receiver
  | .builder _ => some receiver
  | .addAndConfigure element _ => element.className?
  | .accessAndConfigure accessor _ => accessor.objectType.className?

def memberFunction (declarations : Declarations) (receiver : QualifiedName)
    (decl : FunctionDecl) : Except BuildError MemberFunction := do
  let function := receiver.text ++ "." ++ decl.name
  let (values, configured) ← declarations.splitBlock function decl.parameters
  let returns ← optionalType decl.returns
  let semantics ← declarations.semantics receiver function decl configured returns
  let target := storageTarget receiver semantics
  let parameters ← values.mapM (declarations.parameter function target)
  return ⟨receiver, decl.name, parameters, semantics⟩

def constructor (declarations : Declarations) (owner : QualifiedName) (decl : ConstructorDecl) :
    Except BuildError Constructor := do
  return ⟨← decl.parameters.mapM (declarations.parameter (owner.text ++ ".<init>") (some owner))⟩

def dataClass (declarations : Declarations) (name : QualifiedName) (decl : TypeDecl) :
    Except BuildError DataClass := do
  let lineage := declarations.lineage name
  let properties ←
    ((lineage.flatMap (·.2.properties)).eraseDupsBy (·.name == ·.name)).mapM
      PropertyDecl.toProperty
  let functions ←
    ((lineage.flatMap (·.2.functions)).eraseDupsBy (·.signature == ·.signature)).mapM
      (declarations.memberFunction name)
  let constructors ← decl.constructors.mapM (declarations.constructor name)
  let supertypes := (declarations.supertypesOf name).filter declarations.types.contains
  return ⟨name, .ofList supertypes, properties, functions, constructors⟩

def externalFunction (declarations : Declarations) (decl : PackageFunctionDecl) :
    Except BuildError ExternalFunction := do
  let name ← buildName (QualifiedName.inPackage decl.package decl.name)
  if decl.kind ≠ .pure then throw (.invalidFunction name.text .topLevelNotPure)
  let (values, configured) ← declarations.splitBlock name.text decl.parameters
  if configured.isSome then throw (.invalidFunction name.text .pureWithBlock)
  let parameters ← values.mapM (declarations.parameter name.text none)
  let returns ← optionalType decl.returns
  return ⟨name, parameters, .pure (returns.getD .unit)⟩

def externalObject (decl : ObjectDecl) : Except BuildError (QualifiedName × TypeRef) := do
  let name ← buildName (QualifiedName.parse decl.name)
  return (name, ← buildName (TypeRef.parse decl.type))

end Declarations

/-- The default imports of a catalog, each of which must name something that the schema declares. -/
def Schema.checkedImports (schema : Schema) (imports : List String) :
    Except BuildError NameSet := do
  let names ← imports.mapM fun text => do
    let name ← buildName (QualifiedName.parse text)
    if !schema.declares name then throw (.unknownDefaultImport text)
    return name
  return .ofList names

/-- The schema for scripts whose implicit receiver is of the named type. -/
def Schema.build (catalog : Catalog) (style : LambdaStyle) (receiver : String) :
    Except BuildError Schema := do
  let receiver ← buildName (QualifiedName.parse receiver)
  let declarations ← Declarations.ofCatalog catalog style
  let needed ← declarations.reachable catalog receiver
  let classes ← needed.names.filterMapM fun name => do
    match declarations.types.find? name with
    | none => return none
    | some decl => return some (name, ← declarations.dataClass name decl)
  let functions ← catalog.functions.mapM declarations.externalFunction
  let objects ← catalog.objects.mapM Declarations.externalObject
  let schema : Schema :=
    { receiver
      classes := .ofList classes
      functions := .ofList (functions.map fun function => (function.name, function))
      objects := .ofList objects
      defaultImports := .empty
      lambdaStyle := style }
  return { schema with defaultImports := ← schema.checkedImports catalog.defaultImports }

end ConfigScript
