import ConfigScript.Resolution.Environment

/-!
# Resolution

A script is resolved against a schema into the operations that it would carry out. Nothing is
executed. A statement that fails yields no operation and does not keep the others from being
resolved, so that one pass reports every problem.
-/

namespace ConfigScript

structure Resolution where
  operations : List Operation
  diagnostics : List Diagnostic

/-- The operations stand for the whole script only when nothing was reported. -/
def Resolution.isUsable (resolution : Resolution) : Bool :=
  resolution.diagnostics.isEmpty

namespace Environment

mutual

def resolveExpr (environment : Environment) : Expr → Attempt TypedExpr
  | .literal value span => .ok (.constant value span)
  | .null span => .ok (.null span)
  | .this span =>
    match environment.this? span with
    | some receiver => .ok receiver
    | none => .fail .noReceiver span
  | .property none name span => environment.readName name span
  | .property (some owner) name span => do
    let owner ← environment.resolveExpr owner
    let property ← environment.memberProperty owner name span
    return .property owner property span
  | .call receiver name arguments span => do
    let receiver ← environment.resolveReceiver receiver
    let (receiver, candidates) ← environment.callTarget receiver name span
    let values ← environment.resolveArguments arguments
    let hasBlock := arguments.any Argument.isLambda
    let (candidate, bound) ← environment.choose name candidates values hasBlock span
    let configured := candidate.semantics.configuredType?.bind TypeRef.className?
    let block ← environment.resolveBlock configured arguments
    return .invocation (.mk candidate.callee receiver candidate.semantics bound block span)

def resolveReceiver (environment : Environment) : Option Expr → Attempt (Option TypedExpr)
  | none => .ok none
  | some receiver => some <$> environment.resolveExpr receiver

/-- The values of all arguments that are no lambdas; all are resolved, even if one fails. -/
def resolveArguments (environment : Environment) : List Argument → Attempt (List GivenArgument)
  | [] => .ok []
  | .positional value _ :: arguments => do
    let (value, given) ←
      (environment.resolveExpr value).both (environment.resolveArguments arguments)
    return ⟨none, value⟩ :: given
  | .named name value _ :: arguments => do
    let (value, given) ←
      (environment.resolveExpr value).both (environment.resolveArguments arguments)
    return ⟨some name, value⟩ :: given
  | .lambda _ _ :: arguments => environment.resolveArguments arguments

/-- The operations of the first lambda, whose statements see an object of the configured class. -/
def resolveBlock (environment : Environment) (configured : Option QualifiedName) :
    List Argument → Attempt (Option (List Operation))
  | [] => .ok none
  | .lambda (.mk statements _) _ :: _ =>
    match configured with
    | none => .ok none
    | some type =>
      let resolution := (environment.enter type).resolveStatements statements
      ⟨some (some resolution.operations), resolution.diagnostics⟩
  | _ :: arguments => environment.resolveBlock configured arguments

def resolveStatement (environment : Environment) : Statement → Attempt Operation
  | .importName _ _ => .silent
  | .assignment receiver name target value span => do
    let receiver ← environment.resolveReceiver receiver
    let (owner, property) ← environment.assignedProperty receiver name target
    let resolved ← environment.resolveExpr value
    environment.checkAssignable property resolved value.span
    return .write owner property resolved span
  | .localValue name value span =>
    match environment.declaredHere? name with
    | some first => .fail (.duplicateLocal name first.span) span
    | none => do return .bind name (← environment.resolveExpr value) span
  | .expr value => do return .ofExpr (← environment.resolveExpr value)

/-- The operations of the statements that do not fail. -/
def resolveStatements (environment : Environment) : List Statement → Resolution
  | [] => ⟨[], []⟩
  | statement :: statements =>
    let attempt := environment.resolveStatement statement
    let later := (environment.after attempt.result statement).resolveStatements statements
    ⟨attempt.result.toList ++ later.operations, attempt.diagnostics ++ later.diagnostics⟩

end

end Environment

/-- Which statements at the top of a script are resolved. A call counts by its name when it has no
receiver. -/
inductive StatementFilter where
  | all
  | onlyCalls (names : List String)
  | exceptCalls (names : List String)
deriving DecidableEq, Repr

namespace StatementFilter

/-- The name that a statement calls without receiver, when that is all that it does. -/
def topLevelCall? : Statement → Option String
  | .expr (.call none name _ _) => some name
  | _ => none

def accepts (filter : StatementFilter) (statement : Statement) : Bool :=
  match filter with
  | .all => true
  | .onlyCalls names => (topLevelCall? statement).any (names.contains ·)
  | .exceptCalls names => (topLevelCall? statement).all (!names.contains ·)

end StatementFilter

namespace Schema

/-- Resolves the statements of a script that a filter accepts. The imports come first. -/
def resolve (schema : Schema) (undeclared : UndeclaredImports) (filter : StatementFilter)
    (block : Block) : Resolution :=
  let (imports, reported) :=
    Imports.registerAll schema undeclared (.ofDefaults schema.defaultImports) block.imports
  let environment : Environment := ⟨schema, imports, [⟨some schema.receiver, []⟩]⟩
  let statements := block.statements.filter fun statement =>
    !statement.isImport && filter.accepts statement
  let resolution := environment.resolveStatements statements
  ⟨resolution.operations, reported ++ resolution.diagnostics⟩

/-- Resolves an expression by itself, with no object in scope and the default imports only. -/
def resolveExpr (schema : Schema) (value : Expr) : Except (List Diagnostic) TypedExpr :=
  let environment : Environment := ⟨schema, .ofDefaults schema.defaultImports, [⟨none, []⟩]⟩
  let attempt := environment.resolveExpr value
  match attempt.result, attempt.diagnostics with
  | some resolved, [] => .ok resolved
  | _, diagnostics => .error diagnostics

end Schema

end ConfigScript
