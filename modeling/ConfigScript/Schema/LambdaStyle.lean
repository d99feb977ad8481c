import ConfigScript.Text.Blank
import ConfigScript.Text.Split

/-!
# Configure lambdas

Catalogs spell the type of a block that configures a `T` in one of two styles, as a function with
receiver, `T.() -> Unit`, or as an action, `Action<T>`. A parameter of such a type takes the block
behind a call.
-/

namespace ConfigScript

inductive LambdaStyle where
  | receiverFunction
  | actionInterface
deriving DecidableEq, Repr

namespace LambdaStyle

def name : LambdaStyle → String
  | .receiverFunction => "receiver_function"
  | .actionInterface => "action_interface"

def ofName? : String → Option LambdaStyle
  | "receiver_function" => some .receiverFunction
  | "action_interface" => some .actionInterface
  | _ => none

/-- The text of the configured type inside a type of this style, blanks around it included. -/
def inner? : LambdaStyle → List Char → Option (List Char)
  | .receiverFunction, text => do
    let (receiver, result) ← Text.cutAt? ['.', '(', ')'] text
    let result ← Text.dropStart? ['-', '>'] (Text.trim result)
    if Text.trim result = ['U', 'n', 'i', 't'] then some receiver else none
  | .actionInterface, text => do
    Text.dropEnd? ['>'] (← Text.dropStart? ['A', 'c', 't', 'i', 'o', 'n', '<'] text)

/-- The type that a block of this type configures, when the text has the shape of the style. -/
def configuredType? (style : LambdaStyle) (text : String) : Option String := do
  let configured := Text.trim (← style.inner? (Text.trim text.toList))
  if configured.isEmpty then none else some (String.ofList configured)

/-- The type of a block that configures `typeName`. -/
def spell (style : LambdaStyle) (typeName : String) : String :=
  match style with
  | .receiverFunction => typeName ++ ".() -> Unit"
  | .actionInterface => "Action<" ++ typeName ++ ">"

end LambdaStyle

end ConfigScript
