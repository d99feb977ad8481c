import ConfigScript.Name
import ConfigScript.Text.Blank

/-!
# Type references

Types as members mention them: the four literal types, the type of `null`, the unit type, and
classes by name. Types that refer to each other never form a graph, since a class is only named.
-/

namespace ConfigScript

/-- The types of the values that literals spell. -/
inductive ConstantType where
  | string
  | int
  | long
  | boolean
deriving DecidableEq, Repr

def ConstantType.name : ConstantType → String
  | .string => "String"
  | .int => "Int"
  | .long => "Long"
  | .boolean => "Boolean"

inductive TypeRef where
  | constant (type : ConstantType)
  | null
  | unit
  | named (name : QualifiedName)
deriving DecidableEq

namespace TypeRef

/-- Reads a type as catalogs spell it. Whatever is no built-in word is the name of a class. -/
def parse (text : String) : Except InvalidName TypeRef :=
  match String.ofList (Text.trim text.toList) with
  | "String" => .ok (.constant .string)
  | "Int" => .ok (.constant .int)
  | "Long" => .ok (.constant .long)
  | "Boolean" => .ok (.constant .boolean)
  | "Unit" => .ok .unit
  | other => (QualifiedName.parse other).map .named

def className? : TypeRef → Option QualifiedName
  | .named name => some name
  | _ => none

instance : ToString TypeRef where
  toString
    | .constant type => type.name
    | .null => "Nothing?"
    | .unit => "Unit"
    | .named name => name.text

end TypeRef

end ConfigScript
