import ConfigScript.Proofs.Resolution.Failed
import ConfigScript.Proofs.Resolution.Faithful
import ConfigScript.Proofs.Syntax.Located
import ConfigScript.Proofs.Syntax.Nesting

/-!
# Problems do not cascade

Since a node with a failed operand adds nothing to what its operands report, the problems of one
statement stand at places apart from each other, in source order, as long as what is reported inside
configure blocks is left out: a call with such a block has a value even when something inside the
block fails. A local value whose initialiser failed is silent wherever it is used.
-/

namespace ConfigScript

theorem Argument.exists_of_mem_values {arguments : List Argument} {value : Expr}
    (h : value ∈ Argument.values arguments) :
    ∃ argument ∈ arguments, (Node.argument argument).Child (.expr value) := by
  induction arguments with
  | nil => cases h
  | cons argument arguments ih =>
    cases argument with
    | positional first span =>
      cases List.mem_cons.mp h with
      | inl heq => exact ⟨_, List.mem_cons_self, heq ▸ List.mem_singleton_self _⟩
      | inr hrest =>
        obtain ⟨argument, hargument, hchild⟩ := ih hrest
        exact ⟨argument, List.mem_cons_of_mem _ hargument, hchild⟩
    | named name first span =>
      cases List.mem_cons.mp h with
      | inl heq => exact ⟨_, List.mem_cons_self, heq ▸ List.mem_singleton_self _⟩
      | inr hrest =>
        obtain ⟨argument, hargument, hchild⟩ := ih hrest
        exact ⟨argument, List.mem_cons_of_mem _ hargument, hchild⟩
    | lambda body span =>
      obtain ⟨argument, hargument, hchild⟩ := ih h
      exact ⟨argument, List.mem_cons_of_mem _ hargument, hchild⟩

theorem Argument.exists_of_firstLambda? {arguments : List Argument} {body : Block}
    (h : Argument.firstLambda? arguments = some body) :
    ∃ argument ∈ arguments, (Node.argument argument).Child (.block body) := by
  induction arguments with
  | nil => cases h
  | cons argument arguments ih =>
    cases argument with
    | lambda found span =>
      obtain rfl := Option.some.inj h
      exact ⟨_, List.mem_cons_self, List.mem_singleton_self _⟩
    | positional value span =>
      obtain ⟨argument, hargument, hchild⟩ := ih h
      exact ⟨argument, List.mem_cons_of_mem _ hargument, hchild⟩
    | named name value span =>
      obtain ⟨argument, hargument, hchild⟩ := ih h
      exact ⟨argument, List.mem_cons_of_mem _ hargument, hchild⟩

namespace Environment

variable {environment : Environment} {source : String} {node : Node} {operand : Expr}

theorem child_argument {receiver : Option Expr} {name : String} {arguments : List Argument}
    {span : Span} {argument : Argument} (h : argument ∈ arguments) :
    (Node.expr (.call receiver name arguments span)).Child (.argument argument) :=
  List.mem_append_right _ (List.mem_map_of_mem h)

/-- Operands stand below their node. -/
theorem below_of_mem_operands (h : operand ∈ environment.operands node) :
    Relation.TransGen Node.Child node (.expr operand) := by
  cases node with
  | expr value =>
    cases value with
    | property receiver name span =>
      exact .single (List.mem_map_of_mem h)
    | call receiver name arguments span =>
      cases List.mem_append.mp h with
      | inl hreceiver => exact .single (List.mem_append_left _ (List.mem_map_of_mem hreceiver))
      | inr hvalue =>
        split at hvalue
        · obtain ⟨argument, hargument, hchild⟩ := Argument.exists_of_mem_values hvalue
          exact .tail (.single (child_argument hargument)) hchild
        · cases hvalue
    | literal => cases h
    | null => cases h
    | this => cases h
  | argument value => cases h
  | block value => cases h
  | statement value =>
    cases value with
    | importName => cases h
    | assignment receiver name target value span =>
      cases List.mem_append.mp h with
      | inl hreceiver =>
        have htarget : (Node.statement (.assignment receiver name target value span)).Child
            (.expr (.property receiver name target)) := List.mem_cons_self
        exact .tail (.single htarget) (List.mem_map_of_mem hreceiver)
      | inr hvalue =>
        split at hvalue
        · obtain rfl := List.mem_singleton.mp hvalue
          exact .single (List.mem_cons_of_mem _ (List.mem_singleton_self _))
        · cases hvalue
    | localValue name value span =>
      simp only [operands] at h
      split at h
      · cases h
      · obtain rfl := List.mem_singleton.mp h
        exact .single (List.mem_singleton_self _)
    | expr value =>
      obtain rfl := List.mem_singleton.mp h
      exact .single (List.mem_singleton_self _)

theorem below_of_body? {body : Block} (h : node.body? = some body) :
    Relation.TransGen Node.Child node (.block body) := by
  unfold Node.body? at h
  split at h
  · obtain ⟨argument, hargument, hchild⟩ := Argument.exists_of_firstLambda? h
    exact .tail (.single (child_argument hargument)) hchild
  · cases h

theorem pairwise_values {arguments : List Argument}
    (hplaced : ∀ argument ∈ arguments, (Node.argument argument).Everywhere (Node.Placed source))
    (hordered : arguments.Pairwise fun first second => first.span.Before second.span) :
    (Argument.values arguments).Pairwise fun first second => first.span.Before second.span := by
  have hinside : ∀ argument ∈ arguments, ∀ value : Expr,
      (Node.argument argument).Child (.expr value) → value.span.Inside argument.span :=
    fun argument hargument value hchild => (hplaced argument hargument).here.encloses _ hchild
  induction arguments with
  | nil => exact .nil
  | cons argument arguments ih =>
    obtain ⟨hfirst, hrest⟩ := List.pairwise_cons.mp hordered
    obtain ⟨hargument, harguments⟩ := List.forall_mem_cons.mp hplaced
    obtain ⟨hown, hothers⟩ := List.forall_mem_cons.mp hinside
    have hvalues := ih harguments hrest hothers
    have hcons : ∀ value : Expr, (Node.argument argument).Child (.expr value) →
        (value :: Argument.values arguments).Pairwise
          fun first second => first.span.Before second.span := by
      intro value hchild
      refine List.pairwise_cons.mpr ⟨fun later hlater => ?_, hvalues⟩
      obtain ⟨other, hother, hvalue⟩ := Argument.exists_of_mem_values hlater
      exact (hfirst other hother).inside (hown value hchild) (hothers other hother later hvalue)
    cases argument with
    | positional value span => exact hcons value (List.mem_singleton_self _)
    | named name value span => exact hcons value (List.mem_singleton_self _)
    | lambda body span => exact hvalues

/-- Operands stand one behind another. -/
theorem pairwise_operands (hplaced : node.Everywhere (Node.Placed source)) :
    (environment.operands node).Pairwise fun first second => first.span.Before second.span := by
  have hordered := hplaced.here.ordered
  cases node with
  | expr value =>
    cases value with
    | property receiver name span => cases receiver <;> simp [operands]
    | call receiver name arguments span =>
      have harguments : ∀ argument ∈ arguments,
          (Node.argument argument).Everywhere (Node.Placed source) := fun argument hargument =>
        (Node.everywhere_iff.mp hplaced).2 _ (child_argument hargument)
      obtain ⟨-, hlist, hbehind⟩ := List.pairwise_append.mp hordered
      rw [List.pairwise_map] at hlist
      have hvalues := pairwise_values harguments hlist
      refine List.pairwise_append.mpr ⟨?_, ?_, fun value hvalue later hlater => ?_⟩
      · cases receiver <;> simp
      · split
        · exact hvalues
        · exact .nil
      · split at hlater
        · obtain ⟨argument, hargument, hchild⟩ := Argument.exists_of_mem_values hlater
          have hbefore : value.span.Before argument.span :=
            hbehind _ (List.mem_map_of_mem hvalue) _ (List.mem_map_of_mem hargument)
          exact hbefore.inside (.refl _) ((harguments argument hargument).here.encloses _ hchild)
        · cases hlater
    | literal => exact .nil
    | null => exact .nil
    | this => exact .nil
  | argument value => exact .nil
  | block value => exact .nil
  | statement value =>
    cases value with
    | importName => exact .nil
    | assignment receiver name target value span =>
      have htarget := (Node.everywhere_iff.mp hplaced).2 _ List.mem_cons_self
      have hbefore : target.Before value.span :=
        (List.pairwise_cons.mp hordered).1 _ (List.mem_singleton_self _)
      refine List.pairwise_append.mpr ⟨?_, ?_, fun owner howner later hlater => ?_⟩
      · cases receiver <;> simp
      · split <;> simp
      · split at hlater
        · obtain rfl := List.mem_singleton.mp hlater
          exact hbefore.inside (htarget.here.encloses _ (List.mem_map_of_mem howner)) (.refl _)
        · cases hlater
    | localValue name value span =>
      simp only [operands]
      split <;> simp
    | expr value => exact List.pairwise_singleton _ _

/-- The places at which a node itself is reported are those of nodes of its tree. -/
theorem exists_of_mem_places {span : Span} (h : span ∈ node.places) :
    ∃ place, node.Within place ∧ place.span = span := by
  unfold Node.places at h
  split at h
  · rename_i receiver name target value own
    rcases List.mem_cons.mp h with rfl | hvalue
    · exact ⟨.expr (.property receiver name span), .single List.mem_cons_self, rfl⟩
    · obtain rfl := List.mem_singleton.mp hvalue
      exact ⟨.expr value, .single (List.mem_cons_of_mem _ (List.mem_singleton_self _)), rfl⟩
  · obtain rfl := List.mem_singleton.mp h
    exact ⟨node, .refl, rfl⟩

/-- What is reported about a node stands at nodes of its tree, apart from each other and in order
where no configure block is around it; a node that resolves reports only what is inside such
blocks. -/
structure Orderly (environment : Environment) (node : Node) : Prop where
  placed : ∀ found ∈ environment.reported node, ∃ place, node.Within place ∧
    place.span = found.span
  nested : environment.Resolves node → ∀ found ∈ environment.reported node, node.Nests found.span
  apart : (environment.reported node).Pairwise fun first second =>
    node.Nests first.span ∨ node.Nests second.span ∨ first.span.Before second.span

theorem Orderly.inside (h : environment.Orderly node)
    (hplaced : node.Everywhere (Node.Placed source)) {found : Diagnostic}
    (hfound : found ∈ environment.reported node) : found.span.Inside node.span := by
  obtain ⟨place, hplace, heq⟩ := h.placed found hfound
  exact heq ▸ hplace.inside hplaced

section Step

variable {own : Option Diagnostic} {inside : List Diagnostic}

/-- What a block behind a call reports stands inside that block. -/
theorem Accounts.nests_of_mem_inside (h : environment.Accounts node own inside)
    (hplaced : node.Everywhere (Node.Placed source))
    (hbelow : ∀ below, Relation.TransGen Node.Child node below →
      ∀ environment : Environment, environment.Orderly below)
    {found : Diagnostic} (hfound : found ∈ inside) :
    node.Nests found.span ∧ ∃ place, node.Within place ∧ place.span = found.span := by
  obtain ⟨-, statements, span, type, hblock, heq⟩ := h.inside (List.ne_nil_of_mem hfound)
  rw [heq] at hfound
  obtain ⟨⟨later, statement⟩, hentry, hfound⟩ := List.mem_flatMap.mp hfound
  have hbody := below_of_body? hblock
  have hchild : (Node.block (.mk statements span)).Child (.statement statement) :=
    List.mem_map_of_mem (mem_of_mem_along hentry)
  have hstatement := hplaced.within (hbody.tail hchild).to_reflTransGen
  have horderly := hbelow _ (hbody.tail hchild) later
  obtain ⟨place, hplace, hspan⟩ := horderly.placed found hfound
  have hin := (horderly.inside hstatement hfound).trans
    ((hplaced.within hbody.to_reflTransGen).here.encloses _ hchild)
  exact ⟨⟨_, hbody.to_reflTransGen, hin⟩,
    place, (hbody.tail hchild).to_reflTransGen.trans hplace, hspan⟩

/-- An operand that resolves reports only what is inside configure blocks. -/
theorem nests_of_operand
    (hbelow : ∀ below, Relation.TransGen Node.Child node below →
      ∀ environment : Environment, environment.Orderly below)
    (hoperand : operand ∈ environment.operands node)
    (hresolves : environment.Resolves (.expr operand)) {found : Diagnostic}
    (hfound : found ∈ environment.reported (.expr operand)) : node.Nests found.span := by
  have hwithin := below_of_mem_operands hoperand
  exact ((hbelow _ hwithin environment).nested hresolves found hfound).widen
    hwithin.to_reflTransGen

/-- A node is orderly when all nodes below it are. -/
theorem Accounts.orderly (h : environment.Accounts node own inside)
    (hplaced : node.Everywhere (Node.Placed source))
    (hbelow : ∀ below, Relation.TransGen Node.Child node below →
      ∀ environment : Environment, environment.Orderly below) : environment.Orderly node := by
  have hoperand : ∀ operand ∈ environment.operands node,
      node.Within (.expr operand) ∧ environment.Orderly (.expr operand) := by
    intro operand hmem
    have hwithin := below_of_mem_operands hmem
    exact ⟨hwithin.to_reflTransGen, hbelow _ hwithin environment⟩
  have hcases : ∀ found ∈ environment.reported node,
      (∃ operand ∈ environment.operands node, found ∈ environment.reported (.expr operand)) ∨
        found ∈ own ∨ found ∈ inside := by
    intro found hfound
    rwa [h.reported, List.mem_append, List.mem_append, List.mem_flatMap, Option.mem_toList,
      or_assoc] at hfound
  constructor
  case placed =>
    intro found hfound
    rcases hcases found hfound with ⟨operand, hmem, hfound⟩ | hown | hinside
    · obtain ⟨hwithin, horderly⟩ := hoperand operand hmem
      obtain ⟨place, hplace, hspan⟩ := horderly.placed found hfound
      exact ⟨place, hwithin.trans hplace, hspan⟩
    · exact exists_of_mem_places (h.own found hown).1
    · exact (h.nests_of_mem_inside hplaced hbelow hinside).2
  case nested =>
    intro hresolves found hfound
    rcases hcases found hfound with ⟨operand, hmem, hfound⟩ | hown | hinside
    · exact nests_of_operand hbelow hmem (h.resolved hresolves operand hmem) hfound
    · exact absurd hresolves (h.own found hown).2.1
    · exact (h.nests_of_mem_inside hplaced hbelow hinside).1
  case apart =>
    have hbody : ∀ found ∈ inside, node.Nests found.span :=
      fun found hfound => (h.nests_of_mem_inside hplaced hbelow hfound).1
    rw [h.reported, List.pairwise_append, List.pairwise_append, List.pairwise_flatMap]
    refine ⟨⟨⟨fun operand hmem => ?_, ?_⟩, ?_, fun first hfirst second hsecond => ?_⟩, ?_,
      fun _ _ second hsecond => .inr (.inl (hbody second hsecond))⟩
    · -- within one operand
      obtain ⟨hwithin, horderly⟩ := hoperand operand hmem
      apply horderly.apart.imp
      intro first second h
      exact h.imp (·.widen hwithin) (·.imp_left (·.widen hwithin))
    · -- between operands
      refine (pairwise_operands hplaced).imp_of_mem ?_
      intro left right hleft hright hbefore first hfirst second hsecond
      obtain ⟨hwithin, horderly⟩ := hoperand left hleft
      obtain ⟨hlater, hbehind⟩ := hoperand right hright
      exact .inr (.inr (hbefore.inside (horderly.inside (hplaced.within hwithin) hfirst)
        (hbehind.inside (hplaced.within hlater) hsecond)))
    · cases own <;> simp
    · -- the node itself is reported only when its operands have resolved
      obtain ⟨operand, hmem, hfirst⟩ := List.mem_flatMap.mp hfirst
      obtain ⟨-, -, hall⟩ := h.own second (Option.mem_toList.mp hsecond)
      exact .inl (nests_of_operand hbelow hmem (hall operand hmem) hfirst)
    · exact List.pairwise_of_forall_mem_list fun first hfirst second _ =>
        .inl (hbody first hfirst)

end Step

theorem orderly (hplaced : node.Everywhere (Node.Placed source)) (environment : Environment) :
    environment.Orderly node := by
  induction node using Node.below_induction generalizing environment with
  | h node ih =>
    obtain ⟨own, inside, haccounts⟩ := environment.exists_accounts node
    apply haccounts.orderly hplaced
    intro below hbelow
    exact ih below hbelow (hplaced.within hbelow.to_reflTransGen)

end Environment

namespace Schema

/-- What is reported about a script does not cascade, neither up its tree nor along its values. -/
structure Uncascaded (schema : Schema) (undeclared : UndeclaredImports) (filter : StatementFilter)
    (block : Block) : Prop where
  /-- The statements are reported one after another, behind the imports. -/
  reported : (schema.resolve undeclared filter block).diagnostics =
    (Imports.registerAll schema undeclared (.ofDefaults schema.defaultImports) block.imports).2 ++
      ((schema.scriptEnvironment undeclared block).along (block.statements.filter fun statement =>
        !statement.isImport && filter.accepts statement)).flatMap fun entry =>
          entry.1.reported (.statement entry.2)
  /-- Wherever an expression or a statement is resolved, it is reported itself only when all the
  operands that were resolved before it have come to a value. -/
  accounted : ∀ (environment : Environment) (node : Node),
    ∃ own inside, environment.Accounts node own inside
  /-- Nothing is reported where a name is read or assigned whose initialiser has failed. -/
  silent : ∀ (environment : Environment) (name : String) (value : Expr) (span : Span),
    environment.scopes ≠ [] → environment.declaredHere? name = none →
      ¬ environment.Resolves (.expr value) →
        ∀ later : Environment, Environment.Sees name
          (environment.after (environment.resolveStatement (.localValue name value span)).result
            (.localValue name value span)) later →
          ∀ place : Span, later.reported (.expr (.property none name place)) = [] ∧
            ∀ target value, later.reported
              (.statement (.assignment none name target value place)) = []
  /-- Problems of one statement are at nodes of it and, what is inside configure blocks left out, at
  nodes of which none stands in another one's tree or is the same. -/
  apart : ∀ statement, (Node.block block).Within (.statement statement) →
    ∀ environment : Environment,
      (∀ found ∈ environment.reported (.statement statement),
        ∃ place, (Node.statement statement).Within place ∧ place.span = found.span) ∧
      (environment.reported (.statement statement)).Pairwise fun first second =>
        (Node.statement statement).Nests first.span ∨
          (Node.statement statement).Nests second.span ∨
          ∀ left right, (Node.statement statement).Within left → left.span = first.span →
            (Node.statement statement).Within right → right.span = second.span →
              ¬ left.Within right ∧ ¬ right.Within left

theorem diagnostics_resolve (schema : Schema) (undeclared : UndeclaredImports)
    (filter : StatementFilter) (block : Block) :
    (schema.resolve undeclared filter block).diagnostics =
      (Imports.registerAll schema undeclared (.ofDefaults schema.defaultImports) block.imports).2 ++
        ((schema.scriptEnvironment undeclared block).along (block.statements.filter
          fun statement => !statement.isImport && filter.accepts statement)).flatMap fun entry =>
            entry.1.reported (.statement entry.2) := by
  rw [resolve]
  dsimp only
  rw [Environment.diagnostics_resolveStatements]
  rfl

/-- For every schema and every script that was parsed, problems do not cascade. -/
theorem uncascaded_of_parse {label source : String} {block : Block}
    (hparse : Block.parse label source = .ok block) (schema : Schema)
    (undeclared : UndeclaredImports) (filter : StatementFilter) :
    schema.Uncascaded undeclared filter block := by
  have hplaced := Block.placed_of_parse hparse
  constructor
  case reported => exact diagnostics_resolve schema undeclared filter block
  case accounted => exact Environment.exists_accounts
  case silent =>
    intro environment name value span hscopes hnew hfailed later hlater place
    exact Environment.reported_of_unknown
      (hlater.local?_eq.trans (Environment.local?_of_failed hscopes hnew hfailed))
  case apart =>
    intro statement hstatement environment
    have hwithin := hplaced.within hstatement
    have horderly := Environment.orderly hwithin environment
    refine ⟨horderly.placed, horderly.apart.imp ?_⟩
    intro first second h
    refine h.imp id (Or.imp id ?_)
    intro hbefore left right hleft hfirst hright hsecond
    rw [← hfirst, ← hsecond] at hbefore
    exact Node.not_within_of_before (hwithin.within hleft) (hwithin.within hright) hbefore

/-- Of two statements that fail, the second one because of the first, only the first is reported. -/
theorem uncascaded_of_parse_broken :
    ∃ schema block, build mutualCatalog .receiverFunction "Left" = .ok schema ∧
      Block.parse "script" "val broken = missing\npeer = broken" = .ok block ∧
      (schema.resolve .reported .all block).diagnostics.map Diagnostic.code =
        [.unresolvedProperty] ∧
      (schema.resolve .reported .all block).operations = [] ∧
      schema.Uncascaded .reported .all block := by
  have hok : (build mutualCatalog .receiverFunction "Left").toOption.any (fun schema =>
      (Block.parse "script" "val broken = missing\npeer = broken").toOption.any fun block =>
        (schema.resolve .reported .all block).diagnostics.map Diagnostic.code =
            [.unresolvedProperty] ∧
          (schema.resolve .reported .all block).operations = []) = true := by
    decide +kernel
  cases hbuild : build mutualCatalog .receiverFunction "Left" with
  | error fault => simp [hbuild, Except.toOption] at hok
  | ok schema =>
    cases hparse : Block.parse "script" "val broken = missing\npeer = broken" with
    | error failures => simp [hparse, Except.toOption] at hok
    | ok block =>
      simp only [hbuild, hparse, Except.toOption, Option.any_some, decide_eq_true_eq] at hok
      exact ⟨schema, block, rfl, rfl, hok.1, hok.2,
        uncascaded_of_parse hparse schema .reported .all⟩

end Schema

end ConfigScript
