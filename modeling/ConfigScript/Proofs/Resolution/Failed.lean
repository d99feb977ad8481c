import ConfigScript.Proofs.Resolution.Mirroring
import ConfigScript.Proofs.Resolution.Operands

/-!
# Values whose initialiser failed

A name whose initialiser has failed keeps standing for a value, of unknown type, as long as nothing
names another value so. Its uses fail without a report, since the failure has been reported already.
-/

namespace ConfigScript.Environment

variable {start environment : Environment} {name : String} {value : Expr} {span : Span}

/-- The environments in which a name means what it means at the start: those behind statements, of
which none declares the name anew, and those inside the blocks there. -/
inductive Sees (name : String) (start : Environment) : Environment → Prop
  | here : Sees name start start
  | behind {environment : Environment} (h : Sees name start environment)
      (result : Option Operation) (statement : Statement)
      (hold : ∀ value span, statement = .localValue name value span →
        (environment.declaredHere? name).isSome) :
      Sees name start (environment.after result statement)
  | inside {environment : Environment} (h : Sees name start environment) (type : QualifiedName) :
      Sees name start (environment.enter type)

/-- A declaration of another name, or of one that the block has already, leaves a name as it was. -/
theorem local?_after {result : Option Operation} {statement : Statement}
    (hold : ∀ value span, statement = .localValue name value span →
      (environment.declaredHere? name).isSome) :
    (environment.after result statement).local? name = environment.local? name := by
  cases statement with
  | localValue other value span =>
    obtain ⟨schema, imports, _ | ⟨scope, outer⟩⟩ := environment
    · rfl
    · obtain ⟨first, hdeclare, -, hlookup⟩ := @Scope.declare_cons other
        ⟨result.bind Operation.boundType?, span⟩ scope outer
      have hfirst : first.locals.lookup name = scope.locals.lookup name := by
        rw [hlookup name]
        by_cases heq : name = other
        · obtain ⟨binding, hbinding⟩ := Option.isSome_iff_exists.mp (hold value span (heq ▸ rfl))
          have hscope : scope.locals.lookup name = some binding := hbinding
          rw [hscope, Option.some_or]
        · rw [if_neg heq, Option.or_none]
      simp only [after, local?, hdeclare, List.findSome?_cons, hfirst]
  | importName => rfl
  | assignment => rfl
  | expr => rfl

theorem Sees.local?_eq (h : Sees name start environment) :
    environment.local? name = start.local? name := by
  induction h with
  | here => rfl
  | behind h result statement hold ih => rw [local?_after hold, ih]
  | @inside environment h type ih =>
    rw [← ih]
    rfl

/-- A name whose initialiser has failed means a value of unknown type. -/
theorem local?_of_failed (hscopes : environment.scopes ≠ [])
    (hnew : environment.declaredHere? name = none)
    (hfailed : ¬ environment.Resolves (.expr value)) :
    (environment.after (environment.resolveStatement (.localValue name value span)).result
      (.localValue name value span)).local? name = some ⟨none, span⟩ := by
  have hvalue : (environment.resolveExpr value).result = none :=
    Option.not_isSome_iff_eq_none.mp hfailed
  have hresult : (environment.resolveStatement (.localValue name value span)).result = none := by
    rw [resolveStatement, hnew]
    dsimp only
    rw [Attempt.bind_of_none hvalue]
  rw [hresult]
  obtain ⟨schema, imports, _ | ⟨scope, outer⟩⟩ := environment
  · exact absurd rfl hscopes
  · obtain ⟨first, hdeclare, -, hlookup⟩ := @Scope.declare_cons name ⟨none, span⟩ scope outer
    have hscope : scope.locals.lookup name = none := hnew
    have hfirst : first.locals.lookup name = some ⟨none, span⟩ := by
      rw [hlookup name, hscope, if_pos rfl, Option.none_or]
    simp only [after, local?, Option.bind_none, hdeclare, List.findSome?_cons, hfirst]

/-- Nothing is reported about a use of a value of unknown type. -/
theorem reported_of_unknown {declared : Span}
    (h : environment.local? name = some ⟨none, declared⟩) :
    environment.reported (.expr (.property none name span)) = [] ∧
      ∀ target value, environment.reported
        (.statement (.assignment none name target value span)) = [] := by
  constructor
  · rw [reported, resolveExpr, readName, h]
    rfl
  · intro target value
    have hassigned : environment.assignedProperty none name target = Attempt.silent := by
      rw [assignedProperty_eq, namedProperty, assignedName, h]
      rfl
    rw [reported, resolveStatement, resolveReceiver]
    change ((environment.assignedProperty none name target) >>= _).diagnostics = []
    rw [hassigned]
    rfl

end ConfigScript.Environment
