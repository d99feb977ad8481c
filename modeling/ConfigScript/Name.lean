import ConfigScript.Text.Letter
import ConfigScript.Text.Split

/-!
# Qualified names

A qualified name is a nonempty sequence of identifiers joined by dots, such as
`build.plugins.PluginsBlock`. The last identifier is its simple name, what stands before it the
package. Names are ordered as texts.
-/

namespace ConfigScript

/-- Whether a character may begin an identifier. -/
def startsIdentifier (c : Char) : Bool :=
  Text.isAlphabetic c || c == '_'

/-- Whether a character may stand inside an identifier. -/
def continuesIdentifier (c : Char) : Bool :=
  Text.isAlphanumeric c || c == '_'

def isIdentifier : List Char → Bool
  | [] => false
  | c :: cs => startsIdentifier c && cs.all continuesIdentifier

theorem continuesIdentifier_of_starts {c : Char} (h : startsIdentifier c = true) :
    continuesIdentifier c = true := by
  simp only [startsIdentifier, continuesIdentifier, Text.isAlphanumeric, Bool.or_eq_true] at h ⊢
  exact h.imp_left .inl

theorem continuesIdentifier_of_mem {cs : List Char} (h : isIdentifier cs = true) {c : Char}
    (hmem : c ∈ cs) : continuesIdentifier c = true := by
  cases cs with
  | nil => cases hmem
  | cons first rest =>
    rw [isIdentifier, Bool.and_eq_true, List.all_eq_true] at h
    cases List.mem_cons.mp hmem with
    | inl hfirst => exact continuesIdentifier_of_starts (hfirst ▸ h.1)
    | inr hrest => exact h.2 c hrest

/-- A text all of whose dot-separated segments are identifiers. -/
def isQualified (cs : List Char) : Bool :=
  (Text.segments '.' cs).all isIdentifier

theorem mem_of_isQualified {cs : List Char} (h : isQualified cs = true) {c : Char} (hmem : c ∈ cs) :
    c = '.' ∨ continuesIdentifier c = true := by
  have hplace : c = '.' ∨ ∃ segment ∈ Text.segments '.' cs, c ∈ segment := Text.mem_segments hmem
  cases hplace with
  | inl hdot => exact .inl hdot
  | inr hsegment =>
    obtain ⟨segment, hsegment, hc⟩ := hsegment
    exact .inr (continuesIdentifier_of_mem (List.all_eq_true.mp h segment hsegment) hc)

structure QualifiedName where
  text : String
  qualified : isQualified text.toList = true
deriving DecidableEq

/-- A text that is no qualified name. -/
structure InvalidName where
  text : String
deriving DecidableEq, Repr

def InvalidName.message (invalid : InvalidName) : String :=
  "invalid qualified name '" ++ invalid.text ++ "'"

namespace QualifiedName

instance : LT QualifiedName := ⟨fun a b => a.text < b.text⟩

instance (a b : QualifiedName) : Decidable (a < b) :=
  inferInstanceAs (Decidable (a.text < b.text))

instance : ToString QualifiedName := ⟨text⟩

def parse (text : String) : Except InvalidName QualifiedName :=
  if h : isQualified text.toList = true then .ok ⟨text, h⟩ else .error ⟨text⟩

def ofParts (parts : List String) : Except InvalidName QualifiedName :=
  parse (".".intercalate parts)

/-- The name of a member declared in `package`; the empty package adds nothing. -/
def inPackage (package name : String) : Except InvalidName QualifiedName :=
  if package.isEmpty then parse name else parse (package ++ "." ++ name)

def segments (name : QualifiedName) : List (List Char) :=
  Text.segments '.' name.text.toList

/-- The last segment: the name that an import makes visible. -/
def simpleName (name : QualifiedName) : String :=
  String.ofList (name.segments.getLast (Text.segments_ne_nil _ _))

def package? (name : QualifiedName) : Option String :=
  match name.segments.dropLast with
  | [] => none
  | before => some (String.ofList (List.intercalate ['.'] before))

theorem lt_trans {a b c : QualifiedName} (hab : a < b) (hbc : b < c) : a < c :=
  String.lt_trans hab hbc

theorem lt_irrefl (a : QualifiedName) : ¬ a < a :=
  String.lt_irrefl a.text

/-- Names that are neither below nor above each other are the same. -/
theorem eq_of_not_lt {a b : QualifiedName} (hab : ¬ a < b) (hba : ¬ b < a) : a = b := by
  have h : a.text = b.text := String.le_antisymm (String.not_lt.mp hba) (String.not_lt.mp hab)
  cases a
  cases b
  simp_all

end QualifiedName

end ConfigScript
