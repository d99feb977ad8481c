import ConfigScript.Proofs.Syntax.Shape
import ConfigScript.Resolution.Imports

/-!
# Names of imports

The parts of an import that a script has are names, so the dots between them are the only ones and
the import spells a qualified name with these parts. Whether a schema declares an import is then a
question about that name alone: no import of a parsed script is undeclared for its spelling.
-/

namespace ConfigScript

namespace Text

variable {separator : Char}

theorem segments_plain {piece : List Char} (h : separator ∉ piece) :
    segments separator piece = [piece] := by
  induction piece with
  | nil => rfl
  | cons c piece ih =>
    rw [List.mem_cons, not_or] at h
    rw [segments, if_neg (Ne.symm h.1), ih h.2]

theorem segments_append {piece rest : List Char} (h : separator ∉ piece) :
    segments separator (piece ++ separator :: rest) = piece :: segments separator rest := by
  induction piece with
  | nil => rw [List.nil_append, segments, if_pos rfl]
  | cons c piece ih =>
    rw [List.mem_cons, not_or] at h
    rw [List.cons_append, segments, if_neg (Ne.symm h.1), ih h.2]

/-- Cutting at separators undoes joining by them. -/
theorem segments_intercalate {pieces : List (List Char)} (hnonempty : pieces ≠ [])
    (hplain : ∀ piece ∈ pieces, separator ∉ piece) :
    segments separator ([separator].intercalate pieces) = pieces := by
  induction pieces with
  | nil => exact absurd rfl hnonempty
  | cons piece pieces ih =>
    have hpiece := hplain piece List.mem_cons_self
    cases pieces with
    | nil => simpa using segments_plain hpiece
    | cons second pieces =>
      have hothers := ih (by simp) fun other hother => hplain other (List.mem_cons_of_mem _ hother)
      rw [List.intercalate_cons_cons, List.append_assoc, List.singleton_append,
        segments_append hpiece, hothers]

end Text

theorem dot_not_mem_of_isName {name : String} (h : isName name = true) : '.' ∉ name.toList := by
  intro hdot
  have hcontinues := continuesIdentifier_of_mem (Bool.and_eq_true_iff.mp h).1 hdot
  exact absurd hcontinues (by decide)

/-- Names joined by dots are a qualified name, and its segments are those names. -/
theorem QualifiedName.ofParts_names {parts : List String} (hnonempty : parts ≠ [])
    (hparts : ∀ part ∈ parts, isName part = true) :
    ∃ name, ofParts parts = .ok name ∧ name.text = importText parts ∧
      name.segments = parts.map String.toList := by
  have hsegments : Text.segments '.' (importText parts).toList = parts.map String.toList := by
    have htext : (importText parts).toList = ['.'].intercalate (parts.map String.toList) := by
      simp [importText]
    rw [htext]
    refine Text.segments_intercalate (by simpa using hnonempty) fun piece hpiece => ?_
    obtain ⟨part, hpart, rfl⟩ := List.mem_map.mp hpiece
    exact dot_not_mem_of_isName (hparts part hpart)
  have hqualified : isQualified (importText parts).toList = true := by
    rw [isQualified, hsegments, List.all_map, List.all_eq_true]
    exact fun part hpart => (Bool.and_eq_true_iff.mp (hparts part hpart)).1
  exact ⟨⟨importText parts, hqualified⟩, dif_pos hqualified, rfl, hsegments⟩

/-- The imports of a well-formed script have parts, and all of them are names. -/
theorem names_of_mem_imports {statements : List Statement} (h : scriptWellFormed statements)
    {parts : List String} {span : Span} (hmem : Statement.importName parts span ∈ statements) :
    parts ≠ [] ∧ ∀ part ∈ parts, isName part = true := by
  induction statements with
  | nil => cases hmem
  | cons first statements ih =>
    cases first with
    | importName others place =>
      cases List.mem_cons.mp hmem with
      | inl heq =>
        obtain ⟨rfl, -⟩ := Statement.importName.inj heq
        exact ⟨h.1, h.2.1⟩
      | inr hrest => exact ih h.2.2 hrest
    | assignment => exact (statementsWellFormed_iff.mp h _ hmem).elim
    | localValue => exact (statementsWellFormed_iff.mp h _ hmem).elim
    | expr => exact (statementsWellFormed_iff.mp h _ hmem).elim

theorem Block.mem_imports_iff {block : Block} {parts : List String} {span : Span} :
    (parts, span) ∈ block.imports ↔ Statement.importName parts span ∈ block.statements := by
  rw [imports, List.mem_filterMap]
  constructor
  · rintro ⟨statement, hmem, hentry⟩
    cases statement with
    | importName others place =>
      obtain ⟨rfl, rfl⟩ := Prod.mk.inj (Option.some.inj hentry)
      exact hmem
    | assignment => cases hentry
    | localValue => cases hentry
    | expr => cases hentry
  · exact fun hmem => ⟨_, hmem, rfl⟩

/-- An import that spells a qualified name is the entity of that name, or the schema does not
declare the name. -/
theorem Schema.imported?_eq {schema : Schema} {parts : List String} {name : QualifiedName}
    (h : QualifiedName.ofParts parts = .ok name) :
    schema.imported? parts = if schema.declares name then some name else none := by
  rw [imported?, h]

/-- A parsed script is well formed: imports come first and only at the top, every name in it is a
name, and a lambda is the last argument of its call. Each import spells a qualified name, so that
it is taken up or reported by what a schema declares under that name, and never for its
spelling. -/
theorem shaped_of_parse {label source : String} {block : Block}
    (h : Block.parse label source = .ok block) :
    block.WellFormed ∧ ∀ parts span, (parts, span) ∈ block.imports →
      parts ≠ [] ∧ (∀ part ∈ parts, isName part = true) ∧
      ∃ name, QualifiedName.ofParts parts = .ok name ∧ name.text = importText parts ∧
        name.segments = parts.map String.toList ∧
        ∀ schema : Schema, schema.imported? parts =
          if schema.declares name then some name else none := by
  have hwell := Block.wellFormed_of_parse h
  refine ⟨hwell, fun parts span hmem => ?_⟩
  obtain ⟨hnonempty, hparts⟩ := names_of_mem_imports hwell (Block.mem_imports_iff.mp hmem)
  obtain ⟨name, hname, htext, hsegments⟩ := QualifiedName.ofParts_names hnonempty hparts
  exact ⟨hnonempty, hparts, name, hname, htext, hsegments,
    fun schema => Schema.imported?_eq hname⟩

/-- A script with imports whose names have letters and digits of several scripts. -/
def foreignScript : String :=
  "import büro.größe; import _1.日本.x٣\nval a = f(y = b.c) \x7b z = \"import\" \x7d"

theorem shaped_of_parse_foreign :
    ∃ block span, Block.parse "script" foreignScript = .ok block ∧
      (["_1", "日本", "x٣"], span) ∈ block.imports ∧ block.WellFormed ∧
      ∃ name, QualifiedName.ofParts ["_1", "日本", "x٣"] = .ok name ∧ name.text = "_1.日本.x٣" := by
  have hread : (Block.parse "script" foreignScript).toOption.map Block.imports =
      some [(["büro", "größe"], ⟨0, 20, 1, 1⟩), (["_1", "日本", "x٣"], ⟨22, 42, 1, 20⟩)] := by
    decide +kernel
  cases hparse : Block.parse "script" foreignScript with
  | error failures =>
    rw [hparse] at hread
    cases hread
  | ok block =>
    rw [hparse] at hread
    have hmem : (["_1", "日本", "x٣"], ⟨22, 42, 1, 20⟩) ∈ block.imports := by
      rw [Option.some.inj hread]
      exact List.mem_cons_of_mem _ List.mem_cons_self
    obtain ⟨hwell, himports⟩ := shaped_of_parse hparse
    obtain ⟨-, -, name, hname, htext, -⟩ := himports _ _ hmem
    exact ⟨block, _, rfl, hmem, hwell, name, hname, htext⟩

end ConfigScript
