import ConfigScript.Json.Record
import ConfigScript.Schema.Basic

/-!
# Schemas as JSON

The written form of a schema and of all that it holds. Fields stand in a fixed order, maps and
sets in the order of their names, so that equal schemas have one text.
-/

namespace ConfigScript

def ConstantType.ofName? : String → Option ConstantType
  | "String" => some .string
  | "Int" => some .int
  | "Long" => some .long
  | "Boolean" => some .boolean
  | _ => none

def QualifiedName.toJson (name : QualifiedName) : Json :=
  .string name.text

def QualifiedName.ofJson? (value : Json) : Option QualifiedName := do
  (QualifiedName.parse (← value.text?)).toOption

namespace TypeRef

def toJson : TypeRef → Json
  | .constant type => .tagged "Constant" (.string type.name)
  | .null => .string "Null"
  | .unit => .string "Unit"
  | .named name => .tagged "Name" name.toJson

def ofJson? (value : Json) : Option TypeRef := do
  match ← value.case? with
  | ("Constant", some data) => return .constant (← data.named? ConstantType.ofName?)
  | ("Name", some data) => return .named (← QualifiedName.ofJson? data)
  | ("Null", none) => return .null
  | ("Null", some .null) => return .null
  | ("Unit", none) => return .unit
  | ("Unit", some .null) => return .unit
  | _ => none

end TypeRef

namespace Property

def toJson (property : Property) : Json :=
  .object [("name", .string property.name), ("type_ref", property.type.toJson),
    ("is_read_only", .bool property.readOnly), ("has_default", .bool property.hasDefault)]

def ofJson? (value : Json) : Option Property := do
  let fields ← value.record? ["name", "type_ref", "is_read_only", "has_default"]
  let name ← Json.required? fields "name" Json.text?
  let type ← Json.required? fields "type_ref" TypeRef.ofJson?
  let readOnly ← Json.required? fields "is_read_only" Json.flag?
  let hasDefault ← Json.required? fields "has_default" Json.flag?
  return ⟨name, type, readOnly, hasDefault⟩

end Property

def Parameter.Role.toJson : Parameter.Role → Json
  | .storeIn property => .tagged "StoreValueInProperty" property.toJson
  | .unknown => .string "Unknown"

def Parameter.toJson (parameter : Parameter) : Json :=
  .object [("name", .string parameter.name), ("type_ref", parameter.type.toJson),
    ("is_default", .bool parameter.optional), ("semantics", parameter.role.toJson)]

namespace ReturnKind

def name : ReturnKind → String
  | .unit => "Unit"
  | .configuredObject => "ConfiguredObject"

def ofName? : String → Option ReturnKind
  | "Unit" => some .unit
  | "ConfiguredObject" => some .configuredObject
  | _ => none

end ReturnKind

namespace Accessor

def toJson : Accessor → Json
  | .property configured => .tagged "Property" configured.toJson
  | .custom type identifier =>
    .tagged "Custom" (.object [("object_type", type.toJson), ("accessor_id", .string identifier)])

def ofJson? (value : Json) : Option Accessor := do
  match ← value.case? with
  | ("Property", some data) => return .property (← Property.ofJson? data)
  | ("Custom", some (.object fields)) =>
    let type ← Json.required? fields "object_type" TypeRef.ofJson?
    return .custom type (← Json.required? fields "accessor_id" Json.text?)
  | _ => none

end Accessor

namespace Semantics

def toJson : Semantics → Json
  | .pure type => .tagged "Pure" (.object [("return_type", type.toJson)])
  | .builder type => .tagged "Builder" (.object [("return_type", type.toJson)])
  | .addAndConfigure elementType acceptsBlock =>
    .tagged "AddAndConfigure"
      (.object [("element_type", elementType.toJson),
        ("accepts_configure_block", .bool acceptsBlock)])
  | .accessAndConfigure accessor returns =>
    .tagged "AccessAndConfigure"
      (.object [("accessor", accessor.toJson), ("return_kind", .string returns.name)])

def ofJson? (value : Json) : Option Semantics := do
  match ← value.case? with
  | ("Pure", some (.object fields)) =>
    return .pure (← Json.required? fields "return_type" TypeRef.ofJson?)
  | ("Builder", some (.object fields)) =>
    return .builder (← Json.required? fields "return_type" TypeRef.ofJson?)
  | ("AddAndConfigure", some (.object fields)) =>
    let elementType ← Json.required? fields "element_type" TypeRef.ofJson?
    return .addAndConfigure elementType
      (← Json.required? fields "accepts_configure_block" Json.flag?)
  | ("AccessAndConfigure", some (.object fields)) =>
    let accessor ← Json.required? fields "accessor" Accessor.ofJson?
    return .accessAndConfigure accessor
      (← Json.required? fields "return_kind" (Json.named? ReturnKind.ofName?))
  | _ => none

end Semantics

def parametersJson (parameters : List Parameter) : Json :=
  .array (parameters.map Parameter.toJson)

def MemberFunction.toJson (function : MemberFunction) : Json :=
  .object [("receiver", function.receiver.toJson), ("name", .string function.name),
    ("parameters", parametersJson function.parameters), ("semantics", function.semantics.toJson)]

def ExternalFunction.toJson (function : ExternalFunction) : Json :=
  .object [("fq_name", function.name.toJson), ("parameters", parametersJson function.parameters),
    ("semantics", function.semantics.toJson)]

def Constructor.toJson (constructor : Constructor) : Json :=
  .object [("parameters", parametersJson constructor.parameters)]

def NameSet.toJson (set : NameSet) : Json :=
  .array (set.names.map QualifiedName.toJson)

/-- An object whose fields are named by the names of the map. -/
def NameMap.toJson {α : Type} (encode : α → Json) (map : NameMap α) : Json :=
  .object (map.entries.map fun (name, value) => (name.text, encode value))

def DataClass.toJson (dataClass : DataClass) : Json :=
  .object [("name", dataClass.name.toJson), ("supertypes", dataClass.supertypes.toJson),
    ("properties", .array (dataClass.properties.map Property.toJson)),
    ("member_functions", .array (dataClass.functions.map MemberFunction.toJson)),
    ("constructors", .array (dataClass.constructors.map Constructor.toJson))]

def Schema.toJson (schema : Schema) : Json :=
  .object [("top_level_receiver", schema.receiver.toJson),
    ("data_classes", schema.classes.toJson DataClass.toJson),
    ("external_functions", schema.functions.toJson ExternalFunction.toJson),
    ("external_objects", schema.objects.toJson TypeRef.toJson),
    ("default_imports", schema.defaultImports.toJson),
    ("configure_lambdas", .string schema.lambdaStyle.name)]

end ConfigScript
