import ConfigScript.Name

/-!
# Reachable names

The names that can be reached from others by following references, nearest first: a name comes
before all names that are farther away, and names at one distance come in the order in which they
are discovered. Each name is listed once, cycles notwithstanding.
-/

namespace ConfigScript

/-- Visits the names of a queue in turn. A name that was not seen before is listed and the names
next to it join the end of the queue. Every step takes one name off the queue, so a budget of the
length of the queue and the number of all references suffices. -/
def visit (next : QualifiedName → List QualifiedName) :
    Nat → List QualifiedName → List QualifiedName → List QualifiedName
  | 0, _, _ => []
  | _, _, [] => []
  | budget + 1, seen, name :: queue =>
    if name ∈ seen then visit next budget seen queue
    else name :: visit next budget (name :: seen) (queue ++ next name)

/-- All names reachable from one, itself included, when there are at most `references` steps from
one name to a next one. -/
def reachFrom (next : QualifiedName → List QualifiedName) (references : Nat)
    (start : QualifiedName) : List QualifiedName :=
  visit next (references + 1) [] [start]

end ConfigScript
