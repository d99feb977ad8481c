import ConfigScript.Catalog.Basic
import ConfigScript.Proofs.Schema.BreadthFirst

/-!
# Merging catalogs

A merge treats its two sides differently: it looks for repeated default imports on the right only,
and against a list that grows meanwhile. Catalogs may be grouped in any way nevertheless, and
nothing but repeated default imports is lost on the way.
-/

namespace ConfigScript.Catalog

variable {present added : List String} {name text : String}

theorem appendNew_nil : appendNew present [] = present :=
  rfl

theorem appendNew_cons : appendNew present (text :: added) =
    appendNew (if text ∈ present then present else present ++ [text]) added :=
  rfl

theorem appendNew_append (present first second : List String) :
    appendNew present (first ++ second) = appendNew (appendNew present first) second :=
  List.foldl_append

theorem mem_appendNew : name ∈ appendNew present added ↔ name ∈ present ∨ name ∈ added := by
  induction added generalizing present with
  | nil => simp [appendNew_nil]
  | cons text added ih =>
    rw [appendNew_cons, ih, List.mem_cons]
    split
    · rename_i hpresent
      constructor
      · rintro (h | h)
        · exact .inl h
        · exact .inr (.inr h)
      · rintro (h | rfl | h)
        · exact .inl h
        · exact .inl hpresent
        · exact .inr h
    · rw [List.mem_append, List.mem_singleton, or_assoc]

/-- What has been added to the right side beforehand is added behind it. -/
theorem appendNew_assoc (first second third : List String) :
    appendNew (appendNew first second) third = appendNew first (appendNew second third) := by
  induction third generalizing second with
  | nil => rfl
  | cons text third ih =>
    rw [appendNew_cons, appendNew_cons, ← ih]
    by_cases hsecond : text ∈ second
    · rw [if_pos hsecond, if_pos (mem_appendNew.mpr (.inr hsecond))]
    · rw [if_neg hsecond, appendNew_append, appendNew_cons, appendNew_nil]

theorem appendNew_empty (texts : List String) : appendNew [] texts = texts.eraseDups := by
  induction texts using List.reverseRecOn with
  | nil => rfl
  | append_singleton texts text ih =>
    rw [appendNew_append, ih, appendNew_cons, appendNew_nil, List.eraseDups_append,
      List.cons_removeAll]
    by_cases hmem : text ∈ texts
    · simp [hmem, List.removeAll]
    · simp [hmem, List.removeAll, List.eraseDups_cons]

theorem merge_assoc (first second third : Catalog) :
    (first.merge second).merge third = first.merge (second.merge third) := by
  simp only [merge, List.append_assoc, appendNew_assoc]

theorem mergeAll_concat (catalogs : List Catalog) (last : Catalog) :
    mergeAll (catalogs ++ [last]) = (mergeAll catalogs).merge last :=
  List.foldl_append

/-- A list that each merge puts together from those of its two sides. -/
theorem flatMap_mergeAll {α : Type} {declared : Catalog → List α} (hempty : declared empty = [])
    (hmerge : ∀ first second : Catalog,
      declared (first.merge second) = declared first ++ declared second)
    (catalogs : List Catalog) : declared (mergeAll catalogs) = catalogs.flatMap declared := by
  induction catalogs using List.reverseRecOn with
  | nil => exact hempty
  | append_singleton catalogs last ih =>
    rw [mergeAll_concat, hmerge, ih, List.flatMap_append, List.flatMap_singleton]

/-- The texts are added one by one, whichever catalog they come from. -/
theorem defaultImports_mergeAll (catalogs : List Catalog) :
    (mergeAll catalogs).defaultImports = (catalogs.flatMap defaultImports).eraseDups := by
  rw [← appendNew_empty]
  induction catalogs using List.reverseRecOn with
  | nil => rfl
  | append_singleton catalogs last ih =>
    rw [mergeAll_concat, List.flatMap_append, List.flatMap_singleton, appendNew_append, ← ih]
    rfl

/-- Catalogs merged one after another keep all their declarations in order, and of their default
imports the first of each name. How the merges are grouped makes no difference. -/
theorem merging_keeps_all :
    (∀ catalogs : List Catalog,
      (mergeAll catalogs).types = catalogs.flatMap types ∧
      (mergeAll catalogs).functions = catalogs.flatMap functions ∧
      (mergeAll catalogs).objects = catalogs.flatMap objects ∧
      (mergeAll catalogs).defaultImports = (catalogs.flatMap defaultImports).eraseDups ∧
      (mergeAll catalogs).defaultImports.Nodup) ∧
    ∀ first second third : Catalog,
      (first.merge second).merge third = first.merge (second.merge third) := by
  refine ⟨fun catalogs => ?_, merge_assoc⟩
  have himports := defaultImports_mergeAll catalogs
  refine ⟨flatMap_mergeAll rfl (fun _ _ => rfl) catalogs,
    flatMap_mergeAll rfl (fun _ _ => rfl) catalogs,
    flatMap_mergeAll rfl (fun _ _ => rfl) catalogs, himports, ?_⟩
  rw [himports]
  exact nodup_eraseDups _

/-- A name that stands in a catalog twice stays there twice on the left of a merge, and comes to
stand there once on the right. -/
example : (Catalog.merge ⟨[], [], [], ["a", "a"]⟩ ⟨[], [], [], ["b", "a", "b"]⟩).defaultImports =
    ["a", "a", "b"] := by
  decide

end ConfigScript.Catalog
