import ConfigScript.Schema.Member
import ConfigScript.Syntax.Tree

/-!
# Operations

What a script would do: the properties that it writes, the values that it names and the functions
that it calls, every one of them an entity of a schema and every expression with its type.
-/

namespace ConfigScript

/-- The entity that a call refers to. -/
inductive Callee where
  | member (owner : QualifiedName) (name : String)
  | function (name : QualifiedName)
  | constructor (name : QualifiedName)
deriving DecidableEq

def Callee.simpleName : Callee → String
  | .member _ name => name
  | .function name => name.simpleName
  | .constructor name => name.simpleName

mutual

/-- An expression whose names are resolved. -/
inductive TypedExpr where
  | constant (value : Literal) (span : Span)
  | null (span : Span)
  /-- An object in scope, implicit or `this`; that of the whole script has depth 0. -/
  | receiver (type : QualifiedName) (depth : Nat) (span : Span)
  | localValue (name : String) (type : TypeRef) (span : Span)
  | property (owner : TypedExpr) (read : Property) (span : Span)
  | object (name : QualifiedName) (type : TypeRef) (span : Span)
  | invocation (call : Invocation)

/-- A call with its arguments in the order of the parameters. Functions of packages and
constructors have no receiver, and there is no block when none was written. -/
inductive Invocation where
  | mk (callee : Callee) (receiver : Option TypedExpr) (semantics : Semantics)
      (arguments : List BoundArgument) (block : Option (List Operation)) (span : Span)

inductive BoundArgument where
  | mk (parameter : Parameter) (value : TypedExpr)

inductive Operation where
  | write (receiver : TypedExpr) (target : Property) (value : TypedExpr) (span : Span)
  | bind (name : String) (value : TypedExpr) (span : Span)
  | invoke (call : Invocation)
  | evaluate (value : TypedExpr)

end

namespace Invocation

def callee : Invocation → Callee
  | .mk callee _ _ _ _ _ => callee

def receiver : Invocation → Option TypedExpr
  | .mk _ receiver _ _ _ _ => receiver

def semantics : Invocation → Semantics
  | .mk _ _ semantics _ _ _ => semantics

def arguments : Invocation → List BoundArgument
  | .mk _ _ _ arguments _ _ => arguments

def block : Invocation → Option (List Operation)
  | .mk _ _ _ _ block _ => block

def span : Invocation → Span
  | .mk _ _ _ _ _ span => span

def resultType (call : Invocation) : TypeRef :=
  call.semantics.returnType

end Invocation

namespace TypedExpr

def type : TypedExpr → TypeRef
  | .constant value _ => .constant value.constantType
  | .null _ => .null
  | .receiver type _ _ => .named type
  | .localValue _ type _ => type
  | .property _ read _ => read.type
  | .object _ type _ => type
  | .invocation call => call.resultType

def span : TypedExpr → Span
  | .constant _ span => span
  | .null span => span
  | .receiver _ _ span => span
  | .localValue _ _ span => span
  | .property _ _ span => span
  | .object _ _ span => span
  | .invocation call => call.span

end TypedExpr

namespace BoundArgument

def parameter : BoundArgument → Parameter
  | .mk parameter _ => parameter

def value : BoundArgument → TypedExpr
  | .mk _ value => value

end BoundArgument

namespace Operation

def span : Operation → Span
  | .write _ _ _ span => span
  | .bind _ _ span => span
  | .invoke call => call.span
  | .evaluate value => value.span

/-- The operation of a statement that is an expression: a call is carried out, any other
expression is only evaluated. -/
def ofExpr : TypedExpr → Operation
  | .invocation call => .invoke call
  | value => .evaluate value

/-- The type of the value that an operation names. -/
def boundType? : Operation → Option TypeRef
  | .bind _ value _ => some value.type
  | _ => none

end Operation

end ConfigScript
