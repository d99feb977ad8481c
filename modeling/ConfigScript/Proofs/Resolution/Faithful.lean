import ConfigScript.Proofs.Resolution.Accounted
import ConfigScript.Proofs.Resolution.Counting
import ConfigScript.Proofs.Syntax.Shape

/-!
# No statement is lost silently

The operations of a script match its statements exactly when nothing is reported about it beside
its imports.
-/

namespace ConfigScript

namespace Imports

theorem concernsImport_of_registerAll {schema : Schema} {undeclared : UndeclaredImports}
    {imports : Imports} {names : List (List String × Span)} {diagnostic : Diagnostic}
    (h : diagnostic ∈ (imports.registerAll schema undeclared names).2) :
    diagnostic.ConcernsImport := by
  induction names generalizing imports with
  | nil => cases h
  | cons name names ih =>
    obtain ⟨parts, span⟩ := name
    cases List.mem_append.mp h with
    | inl hfirst =>
      split at hfirst
      · split at hfirst
        · obtain rfl := List.mem_singleton.mp hfirst
          exact .inl rfl
        · cases hfirst
      · split at hfirst
        · cases hfirst
        · obtain rfl := List.mem_singleton.mp hfirst
          exact .inr rfl
    | inr hrest => exact ih hrest

end Imports

namespace Schema

/-- The environment at the top of a script, behind its imports. -/
def scriptEnvironment (schema : Schema) (undeclared : UndeclaredImports) (block : Block) :
    Environment :=
  ⟨schema, (Imports.registerAll schema undeclared (.ofDefaults schema.defaultImports)
    block.imports).1, [⟨some schema.receiver, []⟩]⟩

/-- Without a filter, the statements that are no imports are resolved one after another. -/
theorem resolve_all {schema : Schema} {undeclared : UndeclaredImports} {block : Block} :
    schema.resolve undeclared .all block =
      let resolution := (schema.scriptEnvironment undeclared block).resolveStatements
        (block.statements.filter fun statement => !statement.isImport)
      ⟨resolution.operations, (Imports.registerAll schema undeclared
        (.ofDefaults schema.defaultImports) block.imports).2 ++ resolution.diagnostics⟩ := by
  simp only [resolve, scriptEnvironment, StatementFilter.accepts, Bool.and_true]

/-- Beside imports, nothing is reported about a script if and only if its operations match its
statements, one to one, in order and place, and at every level of blocks. -/
theorem unreported_iff_matches {catalog : Catalog} {style : LambdaStyle} {receiver : String}
    {schema : Schema} (hbuild : build catalog style receiver = .ok schema) {label source : String}
    {block : Block} (hparse : Block.parse label source = .ok block)
    (undeclared : UndeclaredImports) :
    (∀ diagnostic ∈ (schema.resolve undeclared .all block).diagnostics,
        diagnostic.ConcernsImport) ↔
      StatementsMatch (block.statements.filter fun statement => !statement.isImport)
          (schema.resolve undeclared .all block).operations ∧
        (schema.resolve undeclared .all block).operations.map Operation.span =
          (block.statements.filter fun statement => !statement.isImport).map Statement.span := by
  have hclosed := closed_of_build hbuild
  have hwell := Block.wellFormed_of_parse hparse
  rw [resolve_all]
  dsimp only
  constructor
  · intro hdiagnostics
    have hclean : (schema.scriptEnvironment undeclared block).Clean := by
      intro scope hscope entry hentry
      obtain rfl := List.mem_singleton.mp hscope
      cases hentry
    have hstatements : statementsWellFormed
        (block.statements.filter fun statement => !statement.isImport) := by
      refine statementsWellFormed_iff.mpr fun statement hstatement => ?_
      obtain ⟨hmem, hnot⟩ := List.mem_filter.mp hstatement
      exact wellFormed_of_not_import hwell hmem (by simpa using hnot)
    have hmatches := Environment.matches_resolveStatements hclosed hclean _ hstatements
      fun diagnostic hmem => hdiagnostics diagnostic (List.mem_append_right _ hmem)
    exact ⟨hmatches, hmatches.spans_eq⟩
  · rintro ⟨hmatches, -⟩ diagnostic hdiagnostic
    have hcount := StatementsMatch.count_eq _ hmatches
    have hquiet : ((schema.scriptEnvironment undeclared block).resolveStatements
        (block.statements.filter fun statement => !statement.isImport)).diagnostics = [] := by
      by_contra hreported
      have hless := (Environment.count_resolveStatements _).2 hreported
      omega
    rw [hquiet, List.append_nil] at hdiagnostic
    exact Imports.concernsImport_of_registerAll hdiagnostic

theorem unreported_iff_matches_configuring :
    ∃ schema block, build mutualCatalog .receiverFunction "Left" = .ok schema ∧
      Block.parse "script" "right \x7b count = 1 \x7d" = .ok block ∧
      StatementsMatch (block.statements.filter fun statement => !statement.isImport)
        (schema.resolve .reported .all block).operations := by
  have hok : (build mutualCatalog .receiverFunction "Left").toOption.any (fun schema =>
      (Block.parse "script" "right \x7b count = 1 \x7d").toOption.any fun block =>
        (schema.resolve .reported .all block).diagnostics.isEmpty) = true := by
    decide +kernel
  cases hbuild : build mutualCatalog .receiverFunction "Left" with
  | error fault => simp [hbuild, Except.toOption] at hok
  | ok schema =>
    cases hparse : Block.parse "script" "right \x7b count = 1 \x7d" with
    | error failures => simp [hparse, Except.toOption] at hok
    | ok block =>
      have hquiet : (schema.resolve .reported .all block).diagnostics = [] := by
        simpa [hbuild, hparse, Except.toOption] using hok
      refine ⟨schema, block, rfl, rfl, ?_⟩
      exact ((unreported_iff_matches hbuild hparse .reported).mp (by simp [hquiet])).1

end Schema

end ConfigScript
