import ConfigScript.Syntax.Failure

/-!
# Spacing

What may stand between tokens: blanks, comments to the end of the line and comments between
`/*` and `*/`. Inside an expression line ends count as blanks too, between statements also
semicolons.
-/

namespace ConfigScript

inductive Spacing where
  | inline
  | multiline
  | separators
deriving DecidableEq, Repr

namespace Spacing

/-- The single characters that the spacing consists of, beside comments. -/
def skips : Spacing → Char → Bool
  | .inline, c => c == ' ' || c == '\t'
  | .multiline, c => c == ' ' || c == '\t' || c == '\r' || c == '\n'
  | .separators, c => c == ' ' || c == '\t' || c == '\r' || c == '\n' || c == ';'

/-- Where the scan of a spacing stands. A block comment remembers the place behind its opening. -/
inductive Mode where
  | between
  | lineComment
  | blockComment (opening : Cursor)

def skipFrom (spacing : Spacing) : Mode → List Char → Position → Except Failure Cursor
  | .between, '/' :: '/' :: cs, position =>
    skipFrom spacing .lineComment cs ((position.after '/').after '/')
  | .between, '/' :: '*' :: cs, position =>
    let position := (position.after '/').after '*'
    skipFrom spacing (.blockComment ⟨cs, position⟩) cs position
  | .between, c :: cs, position =>
    if spacing.skips c then skipFrom spacing .between cs (position.after c)
    else .ok ⟨c :: cs, position⟩
  | .lineComment, c :: cs, position =>
    if c = '\n' ∨ c = '\r' then
      if spacing.skips c then skipFrom spacing .between cs (position.after c)
      else .ok ⟨c :: cs, position⟩
    else skipFrom spacing .lineComment cs (position.after c)
  | .blockComment _, '*' :: '/' :: cs, position =>
    skipFrom spacing .between cs ((position.after '*').after '/')
  | .blockComment opening, c :: cs, position =>
    skipFrom spacing (.blockComment opening) cs (position.after c)
  | .blockComment opening, [], _ => .error (.ofCursor .unterminatedComment opening)
  | _, [], position => .ok ⟨[], position⟩

/-- The first place behind the cursor that is no spacing of this kind. -/
def skip (spacing : Spacing) (cursor : Cursor) : Except Failure Cursor :=
  skipFrom spacing .between cursor.rest cursor.position

end Spacing

end ConfigScript
