import ConfigScript.Proofs.Syntax.Erase
import ConfigScript.Proofs.Syntax.Reading
import ConfigScript.Syntax.Parser

/-!
# Trees in another place

The tree that remains when every span is moved, and what it takes of a move to carry what is read
at one place to another one. A text behind whole lines stands as many bytes and lines further on;
a text on its own stands at the origin.
-/

namespace ConfigScript

mutual

def Expr.mapSpans (move : Span → Span) : Expr → Expr
  | .property none name span => .property none name (move span)
  | .property (some receiver) name span =>
    .property (some (receiver.mapSpans move)) name (move span)
  | .call none name arguments span =>
    .call none name (argumentsMapSpans move arguments) (move span)
  | .call (some receiver) name arguments span =>
    .call (some (receiver.mapSpans move)) name (argumentsMapSpans move arguments) (move span)
  | .literal value span => .literal value (move span)
  | .null span => .null (move span)
  | .this span => .this (move span)

def Argument.mapSpans (move : Span → Span) : Argument → Argument
  | .positional value span => .positional (value.mapSpans move) (move span)
  | .named name value span => .named name (value.mapSpans move) (move span)
  | .lambda body span => .lambda (body.mapSpans move) (move span)

def argumentsMapSpans (move : Span → Span) : List Argument → List Argument
  | [] => []
  | argument :: arguments => argument.mapSpans move :: argumentsMapSpans move arguments

def Block.mapSpans (move : Span → Span) : Block → Block
  | .mk statements span => .mk (statementsMapSpans move statements) (move span)

def statementsMapSpans (move : Span → Span) : List Statement → List Statement
  | [] => []
  | statement :: statements => statement.mapSpans move :: statementsMapSpans move statements

def Statement.mapSpans (move : Span → Span) : Statement → Statement
  | .importName parts span => .importName parts (move span)
  | .assignment none name target value span =>
    .assignment none name (move target) (value.mapSpans move) (move span)
  | .assignment (some receiver) name target value span =>
    .assignment (some (receiver.mapSpans move)) name (move target) (value.mapSpans move)
      (move span)
  | .localValue name value span => .localValue name (value.mapSpans move) (move span)
  | .expr value => .expr (value.mapSpans move)

end

section MapSpans

variable {move : Span → Span}

theorem argumentsMapSpans_append (first second : List Argument) :
    argumentsMapSpans move (first ++ second) =
      argumentsMapSpans move first ++ argumentsMapSpans move second := by
  induction first with
  | nil => rfl
  | cons argument arguments ih => simp [argumentsMapSpans, ih]

theorem mapSpans_member (receiver : Option Expr) (name : String) (span : Span)
    (arguments : Option (List Argument)) :
    (Parser.member receiver name span arguments).mapSpans move =
      Parser.member (receiver.map (Expr.mapSpans move)) name (move span)
        (arguments.map (argumentsMapSpans move)) := by
  cases receiver <;> cases arguments <;> rfl

theorem mapSpans_property (receiver : Option Expr) (name : String) (span : Span) :
    (Expr.property receiver name span).mapSpans move =
      .property (receiver.map (Expr.mapSpans move)) name (move span) := by
  cases receiver <;> rfl

theorem mapSpans_assignment (receiver : Option Expr) (name : String) (target : Span)
    (value : Expr) (span : Span) :
    (Statement.assignment receiver name target value span).mapSpans move =
      .assignment (receiver.map (Expr.mapSpans move)) name (move target) (value.mapSpans move)
        (move span) := by
  cases receiver <;> rfl

theorem statementsMapSpans_eq_map (statements : List Statement) :
    statementsMapSpans move statements = statements.map (Statement.mapSpans move) := by
  induction statements with
  | nil => rfl
  | cons statement statements ih => simp [statementsMapSpans, ih]

theorem Statement.isImport_mapSpans (statement : Statement) :
    (statement.mapSpans move).isImport = statement.isImport := by
  cases statement with
  | assignment receiver => cases receiver <;> rfl
  | _ => rfl

-- A move only touches what forgetting the spans forgets.
mutual

theorem Expr.eraseSpans_mapSpans (value : Expr) :
    (value.mapSpans move).eraseSpans = value.eraseSpans := by
  cases value with
  | property receiver name span =>
    cases receiver with
    | none => rfl
    | some receiver => simp [Expr.mapSpans, Expr.eraseSpans, receiver.eraseSpans_mapSpans]
  | call receiver name arguments span =>
    have harguments := argumentsEraseSpans_mapSpans arguments
    cases receiver with
    | none => simp [Expr.mapSpans, Expr.eraseSpans, harguments]
    | some receiver =>
      simp [Expr.mapSpans, Expr.eraseSpans, receiver.eraseSpans_mapSpans, harguments]
  | literal => rfl
  | null => rfl
  | this => rfl

theorem Argument.eraseSpans_mapSpans (argument : Argument) :
    (argument.mapSpans move).eraseSpans = argument.eraseSpans := by
  cases argument with
  | positional value span =>
    simp [Argument.mapSpans, Argument.eraseSpans, value.eraseSpans_mapSpans]
  | named name value span =>
    simp [Argument.mapSpans, Argument.eraseSpans, value.eraseSpans_mapSpans]
  | lambda body span =>
    obtain ⟨statements, bodySpan⟩ := body
    simp [Argument.mapSpans, Argument.eraseSpans, Block.mapSpans, Block.eraseSpans,
      statementsEraseSpans_mapSpans statements]

theorem argumentsEraseSpans_mapSpans (arguments : List Argument) :
    argumentsEraseSpans (argumentsMapSpans move arguments) = argumentsEraseSpans arguments := by
  cases arguments with
  | nil => rfl
  | cons argument arguments =>
    simp [argumentsMapSpans, argumentsEraseSpans, argument.eraseSpans_mapSpans,
      argumentsEraseSpans_mapSpans arguments]

theorem statementsEraseSpans_mapSpans (statements : List Statement) :
    statementsEraseSpans (statementsMapSpans move statements) =
      statementsEraseSpans statements := by
  cases statements with
  | nil => rfl
  | cons statement statements =>
    simp [statementsMapSpans, statementsEraseSpans, statement.eraseSpans_mapSpans,
      statementsEraseSpans_mapSpans statements]

theorem Statement.eraseSpans_mapSpans (statement : Statement) :
    (statement.mapSpans move).eraseSpans = statement.eraseSpans := by
  cases statement with
  | importName => rfl
  | assignment receiver name target value span =>
    cases receiver with
    | none => simp [Statement.mapSpans, Statement.eraseSpans, value.eraseSpans_mapSpans]
    | some receiver =>
      simp [Statement.mapSpans, Statement.eraseSpans, receiver.eraseSpans_mapSpans,
        value.eraseSpans_mapSpans]
  | localValue name value span =>
    simp [Statement.mapSpans, Statement.eraseSpans, value.eraseSpans_mapSpans]
  | expr value => simp [Statement.mapSpans, Statement.eraseSpans, value.eraseSpans_mapSpans]

end

mutual

theorem Expr.mapSpans_id (value : Expr) : value.mapSpans id = value := by
  cases value with
  | property receiver name span =>
    cases receiver with
    | none => rfl
    | some receiver => simp [Expr.mapSpans, receiver.mapSpans_id]
  | call receiver name arguments span =>
    have harguments := argumentsMapSpans_id arguments
    cases receiver with
    | none => simp [Expr.mapSpans, harguments]
    | some receiver => simp [Expr.mapSpans, receiver.mapSpans_id, harguments]
  | literal => rfl
  | null => rfl
  | this => rfl

theorem Argument.mapSpans_id (argument : Argument) : argument.mapSpans id = argument := by
  cases argument with
  | positional value span => simp [Argument.mapSpans, value.mapSpans_id]
  | named name value span => simp [Argument.mapSpans, value.mapSpans_id]
  | lambda body span =>
    obtain ⟨statements, bodySpan⟩ := body
    simp [Argument.mapSpans, Block.mapSpans, statementsMapSpans_id statements]

theorem argumentsMapSpans_id (arguments : List Argument) :
    argumentsMapSpans id arguments = arguments := by
  cases arguments with
  | nil => rfl
  | cons argument arguments =>
    simp [argumentsMapSpans, argument.mapSpans_id, argumentsMapSpans_id arguments]

theorem statementsMapSpans_id (statements : List Statement) :
    statementsMapSpans id statements = statements := by
  cases statements with
  | nil => rfl
  | cons statement statements =>
    simp [statementsMapSpans, statement.mapSpans_id, statementsMapSpans_id statements]

theorem Statement.mapSpans_id (statement : Statement) : statement.mapSpans id = statement := by
  cases statement with
  | importName => rfl
  | assignment receiver name target value span =>
    cases receiver with
    | none => simp [Statement.mapSpans, value.mapSpans_id]
    | some receiver => simp [Statement.mapSpans, receiver.mapSpans_id, value.mapSpans_id]
  | localValue name value span => simp [Statement.mapSpans, value.mapSpans_id]
  | expr value => simp [Statement.mapSpans, value.mapSpans_id]

end

-- Moving every span to no place at all is forgetting it.
mutual

theorem Expr.mapSpans_blank (value : Expr) :
    value.mapSpans (fun _ => .blank) = value.eraseSpans := by
  cases value with
  | property receiver name span =>
    cases receiver with
    | none => rfl
    | some receiver => rw [Expr.mapSpans, Expr.eraseSpans, receiver.mapSpans_blank]
  | call receiver name arguments span =>
    have harguments := argumentsMapSpans_blank arguments
    cases receiver with
    | none => rw [Expr.mapSpans, Expr.eraseSpans, harguments]
    | some receiver => rw [Expr.mapSpans, Expr.eraseSpans, receiver.mapSpans_blank, harguments]
  | literal => rfl
  | null => rfl
  | this => rfl

theorem Argument.mapSpans_blank (argument : Argument) :
    argument.mapSpans (fun _ => .blank) = argument.eraseSpans := by
  cases argument with
  | positional value span => rw [Argument.mapSpans, Argument.eraseSpans, value.mapSpans_blank]
  | named name value span => rw [Argument.mapSpans, Argument.eraseSpans, value.mapSpans_blank]
  | lambda body span => rw [Argument.mapSpans, Argument.eraseSpans, body.mapSpans_blank]

theorem argumentsMapSpans_blank (arguments : List Argument) :
    argumentsMapSpans (fun _ => .blank) arguments = argumentsEraseSpans arguments := by
  cases arguments with
  | nil => rfl
  | cons argument arguments =>
    rw [argumentsMapSpans, argumentsEraseSpans, argument.mapSpans_blank,
      argumentsMapSpans_blank arguments]

theorem Block.mapSpans_blank (block : Block) :
    block.mapSpans (fun _ => .blank) = block.eraseSpans := by
  cases block with
  | mk statements span =>
    rw [Block.mapSpans, Block.eraseSpans, statementsMapSpans_blank statements]

theorem statementsMapSpans_blank (statements : List Statement) :
    statementsMapSpans (fun _ => .blank) statements = statementsEraseSpans statements := by
  cases statements with
  | nil => rfl
  | cons statement statements =>
    rw [statementsMapSpans, statementsEraseSpans, statement.mapSpans_blank,
      statementsMapSpans_blank statements]

theorem Statement.mapSpans_blank (statement : Statement) :
    statement.mapSpans (fun _ => .blank) = statement.eraseSpans := by
  cases statement with
  | importName => rfl
  | assignment receiver name target value span =>
    cases receiver with
    | none => rw [Statement.mapSpans, Statement.eraseSpans, value.mapSpans_blank]
    | some receiver =>
      rw [Statement.mapSpans, Statement.eraseSpans, receiver.mapSpans_blank,
        value.mapSpans_blank]
  | localValue name value span =>
    rw [Statement.mapSpans, Statement.eraseSpans, value.mapSpans_blank]
  | expr value => rw [Statement.mapSpans, Statement.eraseSpans, value.mapSpans_blank]

end

end MapSpans

/-- A move takes the spans of every text read at one place to those at another place. -/
def Carries (move : Span → Span) (place target : Position) : Prop :=
  ∀ before text, move ((place.afterAll before).spanTo (place.afterAll (before ++ text))) =
    (target.afterAll before).spanTo (target.afterAll (before ++ text))

namespace Carries

variable {move : Span → Span} {place target : Position}

theorem later (h : Carries move place target) (before : List Char) :
    Carries move (place.afterAll before) (target.afterAll before) := by
  intro between text
  simp only [← Position.afterAll_append, ← List.append_assoc]
  exact h (before ++ between) text

theorem spanTo (h : Carries move place target) (text : List Char) :
    move (place.spanTo (place.afterAll text)) = target.spanTo (target.afterAll text) :=
  h [] text

theorem refl : Carries id place place :=
  fun _ _ => rfl

end Carries

/-- A span as many bytes and lines further on. -/
def Span.shift (bytes lines : Nat) (span : Span) : Span :=
  ⟨span.start + bytes, span.stop + bytes, span.line + lines, span.column⟩

namespace Position

variable {place : Position} {text : List Char}

theorem after_shift {bytes lines : Nat} {c : Char} :
    Position.after ⟨place.offset + bytes, place.line + lines, place.column⟩ c =
      ⟨(place.after c).offset + bytes, (place.after c).line + lines, (place.after c).column⟩ := by
  unfold after
  split <;> simp [Nat.add_right_comm]

theorem afterAll_shift {bytes lines : Nat} :
    Position.afterAll ⟨place.offset + bytes, place.line + lines, place.column⟩ text =
      ⟨(place.afterAll text).offset + bytes, (place.afterAll text).line + lines,
        (place.afterAll text).column⟩ := by
  induction text generalizing place with
  | nil => rfl
  | cons c text ih => rw [afterAll_cons, afterAll_cons, after_shift, ih]

/-- Whether a place of a text stands where another place of it stands when the text stands at the
origin. -/
structure Rebased (start place target : Position) : Prop where
  offset : place.offset = start.offset + target.offset
  line : place.line + 1 = start.line + target.line
  first : 1 ≤ target.line
  column : place.line = start.line → place.column + 1 = start.column + target.column
  otherwise : place.line ≠ start.line → place.column = target.column

theorem Rebased.after {start target : Position} {c : Char} (h : Rebased start place target) :
    Rebased start (place.after c) (target.after c) := by
  obtain ⟨hoffset, hline, hfirst, hcolumn, hotherwise⟩ := h
  unfold Position.after
  split
  · exact ⟨by simp only; omega, by simp only; omega, by simp, by simp only; omega, fun _ => rfl⟩
  · refine ⟨by simp only; omega, hline, hfirst, fun heq => ?_, fun hne => ?_⟩
    · have hsame := hcolumn heq
      simp only
      omega
    · simp only [hotherwise hne]

theorem rebased_afterAll {start target : Position} (text : List Char)
    (h : Rebased start place target) :
    Rebased start (place.afterAll text) (target.afterAll text) := by
  induction text generalizing place target with
  | nil => exact h
  | cons c text ih => exact ih h.after

end Position

/-- The span of a text that stands at the origin, told from a span in the same text somewhere
else. -/
def Span.rebase (start : Position) (span : Span) : Span :=
  ⟨span.start - start.offset, span.stop - start.offset, span.line + 1 - start.line,
    if span.line = start.line then span.column + 1 - start.column else span.column⟩

theorem carries_rebase (start : Position) : Carries (Span.rebase start) start .origin := by
  intro before text
  have hstart : Position.Rebased start start .origin :=
    ⟨rfl, rfl, Nat.le_refl _, fun _ => rfl, fun hne => absurd rfl hne⟩
  have hfirst := Position.rebased_afterAll before hstart
  have hlast := Position.rebased_afterAll (before ++ text) hstart
  have hoffset := hfirst.offset
  have hstop := hlast.offset
  have hline := hfirst.line
  unfold Span.rebase Position.spanTo
  simp only [Span.mk.injEq]
  refine ⟨by omega, by omega, by omega, ?_⟩
  split
  · rename_i heq
    have hcolumn := hfirst.column heq
    omega
  · rename_i hne
    exact hfirst.otherwise hne

/-- A text behind whole lines is moved by their bytes and by their line feeds. -/
theorem carries_shift {lines : List Char} :
    Carries (Span.shift (String.ofList (lines ++ ['\n'])).utf8ByteSize
      ((lines ++ ['\n']).count '\n')) .origin (Position.origin.afterAll (lines ++ ['\n'])) := by
  have hbehind : Position.origin.afterAll (lines ++ ['\n']) =
      ⟨Position.origin.offset + (String.ofList (lines ++ ['\n'])).utf8ByteSize,
        Position.origin.line + (lines ++ ['\n']).count '\n', Position.origin.column⟩ := by
    rw [Position.afterAll_origin]
    simp [Position.behind, Position.origin, Nat.add_comm]
  intro before text
  rw [hbehind, Position.afterAll_shift, Position.afterAll_shift]
  rfl

end ConfigScript
