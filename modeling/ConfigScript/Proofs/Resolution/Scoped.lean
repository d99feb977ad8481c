import ConfigScript.Resolution.Imports
import ConfigScript.Resolution.Operation

/-!
# Scoped operations

What an operation may refer to is fixed by the text around the place where it is written: the
objects that the enclosing blocks configure, the values that those blocks have named before, and
the entities that the script imports. The nesting is read off the syntax tree alone.
-/

namespace ConfigScript

/-- A block around a place: the class of the object that it configures, and the values that it has
named so far in source order. The type of a value is missing when its initialiser failed. -/
structure Frame where
  receiver : QualifiedName
  locals : List (String × Option TypeRef)

namespace Frame

/-- The object at a depth, where the frames are listed innermost first and that of the whole script
has depth 0. There is one more frame than there are configure blocks around a place. -/
def ReceiverAt (frames : List Frame) (depth : Nat) (type : QualifiedName) : Prop :=
  frames.reverse[depth]?.map Frame.receiver = some type

/-- The type of the innermost value of a name. A block keeps the first one of several. -/
def LocalIs (frames : List Frame) (name : String) (type : TypeRef) : Prop :=
  frames.findSome? (fun frame => frame.locals.lookup name) = some (some type)

def declare (name : String) (type : Option TypeRef) : List Frame → List Frame
  | [] => []
  | frame :: outer => { frame with locals := frame.locals ++ [(name, type)] } :: outer

/-- The frames behind a statement, which came to an operation or failed. -/
def after (frames : List Frame) (result : Option Operation) : Statement → List Frame
  | .localValue name _ _ => declare name (result.bind Operation.boundType?) frames
  | _ => frames

theorem ReceiverAt.depth_lt {frames : List Frame} {depth : Nat} {type : QualifiedName}
    (h : ReceiverAt frames depth type) : depth < frames.length := by
  obtain ⟨frame, hframe, -⟩ := Option.map_eq_some_iff.mp h
  simpa using (List.getElem?_eq_some_iff.mp hframe).1

theorem receiverAt_length {frame : Frame} {outer : List Frame} :
    ReceiverAt (frame :: outer) outer.length frame.receiver := by
  simp [ReceiverAt]

theorem ReceiverAt.cons {frame : Frame} {frames : List Frame} {depth : Nat} {type : QualifiedName}
    (h : ReceiverAt frames depth type) : ReceiverAt (frame :: frames) depth type := by
  have hdepth : depth < frames.reverse.length := by simpa using h.depth_lt
  unfold ReceiverAt
  rw [List.reverse_cons, List.getElem?_append_left hdepth]
  exact h

end Frame

/-- The name that an operation gives to a value. -/
def Operation.boundName? : Operation → Option String
  | .bind name _ _ => some name
  | _ => none

/-- No two operations of one block name a value alike. -/
def DistinctLocals (operations : List Operation) : Prop :=
  (operations.filterMap Operation.boundName?).Nodup

namespace Schema

/-- An import of a script, or one that its schema makes by default. -/
def IsImported (schema : Schema) (script : Block) (name : QualifiedName) : Prop :=
  name ∈ schema.defaultImports.names ∨
    ∃ entry ∈ script.imports, QualifiedName.ofParts entry.1 = .ok name

/-- What the name of a call may refer to: a member of the receiver, or without one a function or
class of the schema that is imported and whose last segment is that name. -/
inductive ScopedCallee (schema : Schema) (script : Block) :
    Option TypedExpr → String → Callee → Prop where
  | member {receiver : TypedExpr} {owner : QualifiedName} {name : String}
      (howner : receiver.type = .named owner) :
      ScopedCallee schema script (some receiver) name (.member owner name)
  | function {function : QualifiedName} {name : String}
      (hdeclared : schema.functions.contains function = true)
      (himported : schema.IsImported script function) (hname : function.simpleName = name) :
      ScopedCallee schema script none name (.function function)
  | constructor {type : QualifiedName} {name : String}
      (hdeclared : schema.classes.contains type = true)
      (himported : schema.IsImported script type) (hname : type.simpleName = name) :
      ScopedCallee schema script none name (.constructor type)

mutual

/-- An expression, resolved between the frames around it. -/
inductive ScopedExpr (schema : Schema) (script : Block) :
    List Frame → Expr → TypedExpr → Prop where
  | literal {frames : List Frame} {value : Literal} {span : Span} :
      ScopedExpr schema script frames (.literal value span) (.constant value span)
  | null {frames : List Frame} {span : Span} :
      ScopedExpr schema script frames (.null span) (.null span)
  | this {frames : List Frame} {type : QualifiedName} {depth : Nat} {span : Span}
      (hreceiver : Frame.ReceiverAt frames depth type) (hinnermost : depth + 1 = frames.length) :
      ScopedExpr schema script frames (.this span) (.receiver type depth span)
  | localValue {frames : List Frame} {name : String} {type : TypeRef} {span : Span}
      (hlocal : Frame.LocalIs frames name type) :
      ScopedExpr schema script frames (.property none name span) (.localValue name type span)
  | object {frames : List Frame} {name : String} {object : QualifiedName} {type : TypeRef}
      {span : Span} (hobject : schema.objects.find? object = some type)
      (himported : schema.IsImported script object) (hname : object.simpleName = name) :
      ScopedExpr schema script frames (.property none name span) (.object object type span)
  | property {frames : List Frame} {receiver : Option Expr} {owner : TypedExpr} {name : String}
      {read : Property} {span : Span}
      (hreceiver : ScopedReceiver schema script frames receiver (some owner)) :
      ScopedExpr schema script frames (.property receiver name span) (.property owner read span)
  | call {frames : List Frame} {receiver : Option Expr} {target : Option TypedExpr} {name : String}
      {arguments : List Argument} {callee : Callee} {semantics : Semantics}
      {bound : List BoundArgument} {values : List TypedExpr} {block : Option (List Operation)}
      {span : Span} (hreceiver : ScopedReceiver schema script frames receiver target)
      (hcallee : schema.ScopedCallee script target name callee)
      (harguments : ScopedArguments schema script frames arguments values)
      (hbound : (bound.map BoundArgument.value).Perm values)
      (hblock : ScopedBlock schema script frames
        (semantics.configuredType?.bind TypeRef.className?) arguments block) :
      ScopedExpr schema script frames (.call receiver name arguments span)
        (.invocation (.mk callee target semantics bound block span))

/-- A receiver as it is written, or an object of an enclosing block, or none. -/
inductive ScopedReceiver (schema : Schema) (script : Block) :
    List Frame → Option Expr → Option TypedExpr → Prop where
  | none {frames : List Frame} : ScopedReceiver schema script frames none none
  | scope {frames : List Frame} {type : QualifiedName} {depth : Nat} {span : Span}
      (hreceiver : Frame.ReceiverAt frames depth type) :
      ScopedReceiver schema script frames none (some (.receiver type depth span))
  | written {frames : List Frame} {receiver : Expr} {owner : TypedExpr}
      (h : ScopedExpr schema script frames receiver owner) :
      ScopedReceiver schema script frames (some receiver) (some owner)

/-- The values of the arguments that are no lambdas, in the order in which they are written. -/
inductive ScopedArguments (schema : Schema) (script : Block) :
    List Frame → List Argument → List TypedExpr → Prop where
  | nil {frames : List Frame} : ScopedArguments schema script frames [] []
  | positional {frames : List Frame} {value : Expr} {resolved : TypedExpr}
      {arguments : List Argument} {values : List TypedExpr} {span : Span}
      (hvalue : ScopedExpr schema script frames value resolved)
      (hrest : ScopedArguments schema script frames arguments values) :
      ScopedArguments schema script frames (.positional value span :: arguments)
        (resolved :: values)
  | named {frames : List Frame} {name : String} {value : Expr} {resolved : TypedExpr}
      {arguments : List Argument} {values : List TypedExpr} {span : Span}
      (hvalue : ScopedExpr schema script frames value resolved)
      (hrest : ScopedArguments schema script frames arguments values) :
      ScopedArguments schema script frames (.named name value span :: arguments)
        (resolved :: values)
  | lambda {frames : List Frame} {body : Block} {arguments : List Argument}
      {values : List TypedExpr} {span : Span}
      (hrest : ScopedArguments schema script frames arguments values) :
      ScopedArguments schema script frames (.lambda body span :: arguments) values

/-- The operations of the first lambda, inside a frame of its own for the configured class. -/
inductive ScopedBlock (schema : Schema) (script : Block) :
    List Frame → Option QualifiedName → List Argument → Option (List Operation) → Prop where
  | none {frames : List Frame} {configured : Option QualifiedName} {arguments : List Argument} :
      ScopedBlock schema script frames configured arguments none
  | inside {frames : List Frame} {type : QualifiedName} {arguments : List Argument}
      {statements : List Statement} {bodySpan : Span} {operations : List Operation}
      (hlambda : Argument.firstLambda? arguments = some (.mk statements bodySpan))
      (hstatements : ScopedStatements schema script (⟨type, []⟩ :: frames) statements operations)
      (hdistinct : DistinctLocals operations) :
      ScopedBlock schema script frames (some type) arguments (some operations)

inductive ScopedStatement (schema : Schema) (script : Block) :
    List Frame → Statement → Operation → Prop where
  | assignment {frames : List Frame} {receiver : Option Expr} {name : String} {target span : Span}
      {value : Expr} {owner resolved : TypedExpr} {property : Property}
      (hreceiver : ScopedReceiver schema script frames receiver (some owner))
      (hvalue : ScopedExpr schema script frames value resolved) :
      ScopedStatement schema script frames (.assignment receiver name target value span)
        (.write owner property resolved span)
  | localValue {frames : List Frame} {name : String} {value : Expr} {resolved : TypedExpr}
      {span : Span} (hvalue : ScopedExpr schema script frames value resolved) :
      ScopedStatement schema script frames (.localValue name value span)
        (.bind name resolved span)
  | expr {frames : List Frame} {value : Expr} {resolved : TypedExpr}
      (hvalue : ScopedExpr schema script frames value resolved) :
      ScopedStatement schema script frames (.expr value) (.ofExpr resolved)

/-- The operations of a block. A statement that failed has none, but a value that it would have
named is in scope behind it, with no type. -/
inductive ScopedStatements (schema : Schema) (script : Block) :
    List Frame → List Statement → List Operation → Prop where
  | nil {frames : List Frame} : ScopedStatements schema script frames [] []
  | resolved {frames : List Frame} {statement : Statement} {operation : Operation}
      {statements : List Statement} {operations : List Operation}
      (hfirst : ScopedStatement schema script frames statement operation)
      (hrest : ScopedStatements schema script (Frame.after frames (some operation) statement)
        statements operations) :
      ScopedStatements schema script frames (statement :: statements) (operation :: operations)
  | failed {frames : List Frame} {statement : Statement} {statements : List Statement}
      {operations : List Operation}
      (hrest : ScopedStatements schema script (Frame.after frames none statement) statements
        operations) :
      ScopedStatements schema script frames (statement :: statements) operations

end

end Schema

end ConfigScript
