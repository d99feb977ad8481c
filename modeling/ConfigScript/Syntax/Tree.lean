import ConfigScript.Syntax.Span
import ConfigScript.TypeRef

/-!
# Syntax trees

A script is a block of statements. The tree holds what was written and where, and knows nothing
of a schema: whether a call adds an element or computes a value is settled by resolution.
-/

namespace ConfigScript

inductive Literal where
  | string (value : String)
  | int (value : Int32)
  | long (value : Int64)
  | boolean (value : Bool)
deriving DecidableEq

def Literal.constantType : Literal → ConstantType
  | .string _ => .string
  | .int _ => .int
  | .long _ => .long
  | .boolean _ => .boolean

mutual

inductive Expr where
  | property (receiver : Option Expr) (name : String) (span : Span)
  | call (receiver : Option Expr) (name : String) (arguments : List Argument) (span : Span)
  | literal (value : Literal) (span : Span)
  | null (span : Span)
  | this (span : Span)

inductive Argument where
  | positional (value : Expr) (span : Span)
  | named (name : String) (value : Expr) (span : Span)
  | lambda (body : Block) (span : Span)

inductive Block where
  | mk (statements : List Statement) (span : Span)

/-- An assignment writes to a property; `target` is the span of what names it. -/
inductive Statement where
  | importName (parts : List String) (span : Span)
  | assignment (receiver : Option Expr) (name : String) (target : Span) (value : Expr)
      (span : Span)
  | localValue (name : String) (value : Expr) (span : Span)
  | expr (value : Expr)

end

def Expr.span : Expr → Span
  | .property _ _ span => span
  | .call _ _ _ span => span
  | .literal _ span => span
  | .null span => span
  | .this span => span

def Argument.span : Argument → Span
  | .positional _ span => span
  | .named _ _ span => span
  | .lambda _ span => span

def Argument.isLambda : Argument → Bool
  | .lambda _ _ => true
  | _ => false

/-- The body of the first lambda among the arguments. -/
def Argument.firstLambda? : List Argument → Option Block
  | [] => none
  | .lambda body _ :: _ => some body
  | _ :: arguments => firstLambda? arguments

namespace Block

def statements : Block → List Statement
  | .mk statements _ => statements

def span : Block → Span
  | .mk _ span => span

end Block

namespace Statement

def span : Statement → Span
  | .importName _ span => span
  | .assignment _ _ _ _ span => span
  | .localValue _ _ span => span
  | .expr value => value.span

def isImport : Statement → Bool
  | .importName _ _ => true
  | _ => false

end Statement

/-- The imports of a block, each with its parts and its span, in source order. -/
def Block.imports (block : Block) : List (List String × Span) :=
  block.statements.filterMap fun
    | .importName parts span => some (parts, span)
    | _ => none

end ConfigScript
