import ConfigScript.Proofs.Resolution.Lookup
import ConfigScript.Proofs.Resolution.Matches
import ConfigScript.Proofs.Resolution.Soundness

/-!
# Counting statements and operations

Resolution never yields more operations than there are statements, all levels of blocks taken
together, and it yields fewer of them as soon as it reports a problem. Operations that match their
statements are as many as these, so where they match nothing has been reported.
-/

namespace ConfigScript

mutual

/-- How many statements stand in the lambdas of an expression, at any depth. -/
def Expr.statementCount : Expr → Nat
  | .property receiver _ _ => receiverStatementCount receiver
  | .call receiver _ arguments _ =>
    receiverStatementCount receiver + argumentStatementCount arguments
  | .literal _ _ => 0
  | .null _ => 0
  | .this _ => 0

def receiverStatementCount : Option Expr → Nat
  | none => 0
  | some receiver => receiver.statementCount

def argumentStatementCount : List Argument → Nat
  | [] => 0
  | .positional value _ :: arguments => value.statementCount + argumentStatementCount arguments
  | .named _ value _ :: arguments => value.statementCount + argumentStatementCount arguments
  | .lambda (.mk statements _) _ :: arguments =>
    statementCount statements + argumentStatementCount arguments

def statementCount : List Statement → Nat
  | [] => 0
  | statement :: statements => statement.count + statementCount statements

/-- A statement itself and those in its lambdas. -/
def Statement.count : Statement → Nat
  | .importName _ _ => 1
  | .assignment receiver _ _ value _ => receiverStatementCount receiver + value.statementCount + 1
  | .localValue _ value _ => value.statementCount + 1
  | .expr value => value.statementCount + 1

end

mutual

/-- How many operations stand in the blocks of a resolved expression, at any depth. -/
def TypedExpr.operationCount : TypedExpr → Nat
  | .property owner _ _ => owner.operationCount
  | .invocation call => call.operationCount
  | .constant _ _ => 0
  | .null _ => 0
  | .receiver _ _ _ => 0
  | .localValue _ _ _ => 0
  | .object _ _ _ => 0

def Invocation.operationCount : Invocation → Nat
  | .mk _ receiver _ arguments block _ =>
    receiverOperationCount receiver + argumentOperationCount arguments + blockOperationCount block

def receiverOperationCount : Option TypedExpr → Nat
  | none => 0
  | some receiver => receiver.operationCount

def argumentOperationCount : List BoundArgument → Nat
  | [] => 0
  | .mk _ value :: arguments => value.operationCount + argumentOperationCount arguments

def blockOperationCount : Option (List Operation) → Nat
  | none => 0
  | some operations => operationCount operations

def operationCount : List Operation → Nat
  | [] => 0
  | operation :: operations => operation.count + operationCount operations

def Operation.count : Operation → Nat
  | .write receiver _ value _ => receiver.operationCount + value.operationCount + 1
  | .bind _ value _ => value.operationCount + 1
  | .invoke call => call.operationCount + 1
  | .evaluate value => value.operationCount + 1

end

/-- The operations inside several values together. -/
def valuesOperationCount : List TypedExpr → Nat
  | [] => 0
  | value :: values => value.operationCount + valuesOperationCount values

theorem valuesOperationCount_perm {first second : List TypedExpr} (h : first.Perm second) :
    valuesOperationCount first = valuesOperationCount second := by
  induction h with
  | nil => rfl
  | cons value _ ih => simp only [valuesOperationCount, ih]
  | swap first second values =>
    simp only [valuesOperationCount]
    omega
  | trans _ _ ihfirst ihsecond => exact ihfirst.trans ihsecond

theorem argumentOperationCount_eq {arguments : List BoundArgument} :
    argumentOperationCount arguments =
      valuesOperationCount (arguments.map BoundArgument.value) := by
  induction arguments with
  | nil => rfl
  | cons argument arguments ih =>
    obtain ⟨parameter, value⟩ := argument
    simp [argumentOperationCount, valuesOperationCount, ih, BoundArgument.value]

theorem argumentOperationCount_of_perm {arguments : List BoundArgument} {values : List TypedExpr}
    (h : (arguments.map BoundArgument.value).Perm values) :
    argumentOperationCount arguments = valuesOperationCount values := by
  rw [argumentOperationCount_eq, valuesOperationCount_perm h]

theorem Operation.count_ofExpr {value : TypedExpr} :
    (Operation.ofExpr value).count = value.operationCount + 1 := by
  cases value <;> simp [Operation.ofExpr, Operation.count, TypedExpr.operationCount]

theorem Statement.count_pos (statement : Statement) : 0 < statement.count := by
  cases statement <;> simp [Statement.count]

theorem operationCount_append {left right : List Operation} :
    operationCount (left ++ right) = operationCount left + operationCount right := by
  induction left with
  | nil => simp [operationCount]
  | cons operation left ih => simp [operationCount, ih, Nat.add_assoc]

mutual

theorem ExprMatches.count_eq (source : Expr) {value : TypedExpr} (h : ExprMatches source value) :
    value.operationCount = source.statementCount := by
  cases source with
  | literal | null | this =>
    cases h
    simp only [TypedExpr.operationCount, Expr.statementCount]
  | property receiver name span =>
    cases h with
    | localValue | object =>
      simp only [TypedExpr.operationCount, Expr.statementCount, receiverStatementCount]
    | property hreceiver hname =>
      simpa only [TypedExpr.operationCount, Expr.statementCount, receiverOperationCount] using
        ReceiverMatches.count_eq receiver hreceiver
  | call receiver name arguments span =>
    cases h with
    | call hreceiver hname harguments hbound =>
      have hvalues := ArgumentsMatch.count_eq arguments harguments
      simp only [TypedExpr.operationCount, Invocation.operationCount, Expr.statementCount,
        ReceiverMatches.count_eq receiver hreceiver, argumentOperationCount_of_perm hbound]
      omega

theorem ReceiverMatches.count_eq (source : Option Expr) {receiver : Option TypedExpr}
    {span : Span} (h : ReceiverMatches span source receiver) :
    receiverOperationCount receiver = receiverStatementCount source := by
  cases source with
  | none =>
    cases h <;>
      simp only [receiverOperationCount, receiverStatementCount, TypedExpr.operationCount]
  | some source =>
    cases h with
    | written hmatches =>
      simpa only [receiverOperationCount, receiverStatementCount] using
        ExprMatches.count_eq source hmatches

theorem ArgumentsMatch.count_eq (arguments : List Argument) {values : List TypedExpr}
    {block : Option (List Operation)} (h : ArgumentsMatch arguments values block) :
    valuesOperationCount values + blockOperationCount block =
      argumentStatementCount arguments := by
  cases arguments with
  | nil =>
    cases h
    simp [valuesOperationCount, blockOperationCount, argumentStatementCount]
  | cons argument arguments =>
    cases argument with
    | positional value span =>
      cases h with
      | positional hvalue hrest =>
        have hcount := ArgumentsMatch.count_eq arguments hrest
        simp only [valuesOperationCount, argumentStatementCount,
          ExprMatches.count_eq value hvalue]
        omega
    | named name value span =>
      cases h with
      | named hvalue hrest =>
        have hcount := ArgumentsMatch.count_eq arguments hrest
        simp only [valuesOperationCount, argumentStatementCount,
          ExprMatches.count_eq value hvalue]
        omega
    | lambda body span =>
      obtain ⟨statements, bodySpan⟩ := body
      cases h with
      | lambda hmatches =>
        simp [valuesOperationCount, blockOperationCount, argumentStatementCount,
          StatementsMatch.count_eq statements hmatches]

theorem StatementMatches.count_eq (statement : Statement) {operation : Operation}
    (h : StatementMatches statement operation) : operation.count = statement.count := by
  cases statement with
  | importName parts span => cases h
  | assignment receiver name target value span =>
    cases h with
    | assignment hreceiver hname hvalue =>
      have howner := ReceiverMatches.count_eq receiver hreceiver
      rw [receiverOperationCount] at howner
      rw [Operation.count, Statement.count, howner, ExprMatches.count_eq value hvalue]
  | localValue name value span =>
    cases h with
    | localValue hvalue =>
      rw [Operation.count, Statement.count, ExprMatches.count_eq value hvalue]
  | expr value =>
    cases h with
    | expr hvalue hoperation =>
      rw [hoperation, Operation.count_ofExpr, Statement.count, ExprMatches.count_eq value hvalue]

theorem StatementsMatch.count_eq (statements : List Statement) {operations : List Operation}
    (h : StatementsMatch statements operations) :
    operationCount operations = statementCount statements := by
  cases statements with
  | nil =>
    cases h
    simp only [operationCount, statementCount]
  | cons statement statements =>
    cases h with
    | cons hfirst hrest =>
      rw [operationCount, statementCount, StatementMatches.count_eq statement hfirst,
        StatementsMatch.count_eq statements hrest]

end

/-- The part of the statements of arguments that stands in values, not in lambdas behind them. -/
def valueStatementCount : List Argument → Nat
  | [] => 0
  | .positional value _ :: arguments => value.statementCount + valueStatementCount arguments
  | .named _ value _ :: arguments => value.statementCount + valueStatementCount arguments
  | .lambda _ _ :: arguments => valueStatementCount arguments

def lambdaStatementCount : List Argument → Nat
  | [] => 0
  | .positional _ _ :: arguments => lambdaStatementCount arguments
  | .named _ _ _ :: arguments => lambdaStatementCount arguments
  | .lambda (.mk statements _) _ :: arguments =>
    statementCount statements + lambdaStatementCount arguments

theorem argumentStatementCount_eq {arguments : List Argument} :
    argumentStatementCount arguments =
      valueStatementCount arguments + lambdaStatementCount arguments := by
  induction arguments with
  | nil => simp only [argumentStatementCount, valueStatementCount, lambdaStatementCount]
  | cons argument arguments ih =>
    rcases argument with ⟨value, span⟩ | ⟨name, value, span⟩ | ⟨⟨statements, bodySpan⟩, span⟩
    all_goals
      simp only [argumentStatementCount, valueStatementCount, lambdaStatementCount, ih]
      omega

namespace Attempt

variable {α β : Type}

/-- An attempt whose results are of at most some size, and below it when anything is reported. -/
def Within (attempt : Attempt α) (size : α → Nat) (bound : Nat) : Prop :=
  ∀ value, attempt.result = some value →
    size value ≤ bound ∧ (attempt.diagnostics ≠ [] → size value < bound)

/-- An attempt that reports nothing when it has a result. -/
def Quiet (attempt : Attempt α) : Prop :=
  ∀ value, attempt.result = some value → attempt.diagnostics = []

theorem quiet_ok {value : α} : (ok value).Quiet :=
  fun _ _ => rfl

theorem quiet_silent : (silent : Attempt α).Quiet :=
  fun _ _ => rfl

theorem quiet_fail {cause : Diagnostic.Cause} {span : Span} :
    (fail cause span : Attempt α).Quiet := by
  rintro _ ⟨⟩

theorem diagnostics_bind {first : Attempt α} {next : α → Attempt β} {value : α}
    (h : first.result = some value) :
    (first >>= next).diagnostics = first.diagnostics ++ (next value).diagnostics := by
  change (first.andThen next).diagnostics = _
  rw [andThen, h]

theorem Quiet.bind {first : Attempt α} {next : α → Attempt β} (hfirst : first.Quiet)
    (hnext : ∀ value, first.result = some value → (next value).Quiet) :
    (first >>= next).Quiet := by
  intro result hresult
  obtain ⟨value, hvalue, hresult⟩ := result_bind.mp hresult
  rw [diagnostics_bind hvalue, hfirst value hvalue, hnext value hvalue result hresult,
    List.append_nil]

theorem Quiet.within {attempt : Attempt α} {size : α → Nat} {bound : Nat} (h : attempt.Quiet)
    (hsize : ∀ value, attempt.result = some value → size value ≤ bound) :
    attempt.Within size bound :=
  fun value hvalue => ⟨hsize value hvalue, fun hreported => absurd (h value hvalue) hreported⟩

theorem within_ok {value : α} {size : α → Nat} {bound : Nat} (h : size value ≤ bound) :
    (ok value).Within size bound := by
  refine quiet_ok.within ?_
  rintro _ ⟨⟩
  exact h

theorem Quiet.bind_within {first : Attempt α} {next : α → Attempt β} {size : β → Nat}
    {bound : Nat} (hfirst : first.Quiet)
    (hnext : ∀ value, first.result = some value → (next value).Within size bound) :
    (first >>= next).Within size bound := by
  intro result hresult
  obtain ⟨value, hvalue, hresult⟩ := result_bind.mp hresult
  rw [diagnostics_bind hvalue, hfirst value hvalue, List.nil_append]
  exact hnext value hvalue result hresult

theorem Within.bind {first : Attempt α} {next : α → Attempt β} {middle : α → Nat}
    {size : β → Nat} {bound extra : Nat} (hfirst : first.Within middle bound)
    (hnext : ∀ value, first.result = some value →
      (next value).Within size (middle value + extra)) :
    (first >>= next).Within size (bound + extra) := by
  intro result hresult
  obtain ⟨value, hvalue, hresult⟩ := result_bind.mp hresult
  obtain ⟨hmiddle, hmiddleLess⟩ := hfirst value hvalue
  obtain ⟨hsize, hsizeLess⟩ := hnext value hvalue result hresult
  refine ⟨by omega, fun hreported => ?_⟩
  rw [diagnostics_bind hvalue] at hreported
  by_cases hquiet : first.diagnostics = []
  · have hless := hsizeLess (by simpa [hquiet] using hreported)
    omega
  · have hless := hmiddleLess hquiet
    omega

theorem Within.both {first : Attempt α} {second : Attempt β} {left : α → Nat} {right : β → Nat}
    {leftBound rightBound : Nat} (hfirst : first.Within left leftBound)
    (hsecond : second.Within right rightBound) :
    (first.both second).Within (fun pair => left pair.1 + right pair.2)
      (leftBound + rightBound) := by
  intro pair hpair
  obtain ⟨ha, hb⟩ := result_both.mp hpair
  obtain ⟨hleft, hleftLess⟩ := hfirst _ ha
  obtain ⟨hright, hrightLess⟩ := hsecond _ hb
  dsimp only
  refine ⟨by omega, fun hreported => ?_⟩
  change first.diagnostics ++ second.diagnostics ≠ [] at hreported
  by_cases hquiet : first.diagnostics = []
  · have hless := hrightLess (by simpa [hquiet] using hreported)
    omega
  · have hless := hleftLess hquiet
    omega

end Attempt

namespace Environment

variable {environment : Environment} {name : String} {span : Span}

theorem within_readName :
    (environment.readName name span).Within TypedExpr.operationCount 0 := by
  unfold readName
  split
  · exact Attempt.within_ok (by simp [TypedExpr.operationCount])
  · exact Attempt.quiet_silent.within (by simp)
  · split
    · rename_i hproperty
      obtain ⟨-, type, depth, rfl⟩ := name_of_receiverProperty? hproperty
      exact Attempt.within_ok (by simp [TypedExpr.operationCount])
    · split
      · exact Attempt.within_ok (by simp [TypedExpr.operationCount])
      · exact Attempt.quiet_fail.within (by simp)

theorem quiet_memberOwner {receiver : TypedExpr} : (memberOwner receiver span).Quiet := by
  unfold memberOwner
  split
  · exact Attempt.quiet_fail
  · exact Attempt.quiet_ok

theorem quiet_memberProperty {receiver : TypedExpr} :
    (environment.memberProperty receiver name span).Quiet := by
  refine quiet_memberOwner.bind fun owner _ => ?_
  split
  · exact Attempt.quiet_ok
  · exact Attempt.quiet_fail

theorem within_namedProperty {receiver : Option TypedExpr} :
    (environment.namedProperty receiver name span).Within (fun found => found.1.operationCount)
      (receiverOperationCount receiver) := by
  cases receiver with
  | none =>
    change (environment.assignedName name span).Within _ _
    unfold assignedName
    split
    · exact Attempt.quiet_fail.within (by simp)
    · exact Attempt.quiet_silent.within (by simp)
    · split
      · rename_i found hproperty
        obtain ⟨-, type, depth, hreceiver⟩ := name_of_receiverProperty? hproperty
        exact Attempt.within_ok (by simp [hreceiver, TypedExpr.operationCount])
      · exact Attempt.quiet_fail.within (by simp)
  | some owner =>
    refine quiet_memberProperty.bind_within fun property _ => Attempt.within_ok ?_
    simp [receiverOperationCount]

theorem within_assignedProperty {receiver : Option TypedExpr} :
    (environment.assignedProperty receiver name span).Within (fun found => found.1.operationCount)
      (receiverOperationCount receiver) := by
  rw [assignedProperty_eq, ← Nat.add_zero (receiverOperationCount receiver)]
  refine within_namedProperty.bind fun found _ => ?_
  dsimp only
  split
  · exact Attempt.quiet_fail.within (by simp)
  · exact Attempt.within_ok (Nat.le_refl _)

theorem quiet_callTarget {receiver : Option TypedExpr} :
    (environment.callTarget receiver name span).Quiet := by
  have hnamed : (environment.namedFunctions receiver name span).Quiet := by
    unfold namedFunctions
    split
    · exact quiet_memberOwner.bind fun _ _ => Attempt.quiet_ok
    · split <;> exact Attempt.quiet_ok
  rw [callTarget_eq]
  refine hnamed.bind fun found _ => ?_
  dsimp only
  split
  · exact Attempt.quiet_fail
  · exact Attempt.quiet_ok

theorem within_callTarget {receiver : Option TypedExpr} :
    (environment.callTarget receiver name span).Within
      (fun found => receiverOperationCount found.1) (receiverOperationCount receiver) := by
  refine quiet_callTarget.within fun found hfound => ?_
  rcases callTarget_cases hfound with ⟨value, rfl, htarget, -⟩ |
    ⟨depth, type, rfl, -, htarget, -⟩ | ⟨rfl, htarget, -⟩
  all_goals simp [htarget, receiverOperationCount, TypedExpr.operationCount]

theorem within_choose {candidates : List Candidate} {arguments : List GivenArgument}
    {hasBlock : Bool} :
    (environment.choose name candidates arguments hasBlock span).Within
      (fun choice => argumentOperationCount choice.2)
      (valuesOperationCount (arguments.map GivenArgument.value)) := by
  unfold choose
  split
  · rename_i candidate assignment hselected
    have hperm := Candidate.values_perm_of_accept (selectCandidate_eq_ok hselected).2
    exact Attempt.within_ok (Nat.le_of_eq (argumentOperationCount_of_perm hperm))
  · exact Attempt.quiet_fail.within (by simp)

theorem quiet_checkAssignable {property : Property} {value : TypedExpr} :
    (environment.checkAssignable property value span).Quiet := by
  unfold checkAssignable
  split
  · exact Attempt.quiet_ok
  · exact Attempt.quiet_fail

mutual

theorem within_resolveExpr {environment : Environment} (source : Expr) :
    (environment.resolveExpr source).Within TypedExpr.operationCount source.statementCount := by
  cases source with
  | literal | null =>
    rw [resolveExpr]
    exact Attempt.within_ok (by simp [TypedExpr.operationCount])
  | this span =>
    rw [resolveExpr]
    split
    · rename_i receiver hthis
      obtain ⟨⟨depth, type⟩, -, rfl⟩ := Option.map_eq_some_iff.mp hthis
      exact Attempt.within_ok (by simp [TypedExpr.operationCount])
    · exact Attempt.quiet_fail.within (by simp)
  | property receiver name span =>
    cases receiver with
    | none =>
      rw [resolveExpr, Expr.statementCount, receiverStatementCount]
      exact within_readName
    | some owner =>
      rw [resolveExpr, Expr.statementCount, receiverStatementCount,
        ← Nat.add_zero owner.statementCount]
      refine (within_resolveExpr owner).bind fun resolved _ => ?_
      refine quiet_memberProperty.bind_within fun property _ => Attempt.within_ok ?_
      rw [TypedExpr.operationCount]
      exact Nat.le_add_right _ 0
  | call receiver name arguments span =>
    rw [resolveExpr, Expr.statementCount]
    refine (within_resolveReceiver receiver).bind fun owner _ => ?_
    refine within_callTarget.bind fun found _ => ?_
    obtain ⟨target, candidates⟩ := found
    have hparts : receiverOperationCount target + argumentStatementCount arguments =
        valueStatementCount arguments +
          (receiverOperationCount target + lambdaStatementCount arguments) := by
      rw [argumentStatementCount_eq]
      omega
    dsimp only
    rw [hparts]
    refine (within_resolveArguments arguments).bind fun values _ => ?_
    refine within_choose.bind fun choice _ => ?_
    obtain ⟨candidate, bound⟩ := choice
    have hblock : argumentOperationCount bound +
        (receiverOperationCount target + lambdaStatementCount arguments) =
        lambdaStatementCount arguments +
          (receiverOperationCount target + argumentOperationCount bound) := by
      omega
    dsimp only
    rw [hblock]
    refine Attempt.Within.bind (within_resolveBlock arguments) fun block _ => ?_
    refine Attempt.within_ok ?_
    rw [TypedExpr.operationCount, Invocation.operationCount]
    omega

theorem within_resolveReceiver {environment : Environment} (source : Option Expr) :
    (environment.resolveReceiver source).Within receiverOperationCount
      (receiverStatementCount source) := by
  cases source with
  | none =>
    rw [resolveReceiver]
    exact Attempt.within_ok (by simp [receiverOperationCount])
  | some source =>
    rw [resolveReceiver, receiverStatementCount, ← Nat.add_zero source.statementCount]
    refine Attempt.Within.bind (within_resolveExpr source) fun value _ => ?_
    exact Attempt.within_ok (by simp [receiverOperationCount])

theorem within_resolveArguments {environment : Environment} (arguments : List Argument) :
    (environment.resolveArguments arguments).Within
      (fun given => valuesOperationCount (given.map GivenArgument.value))
      (valueStatementCount arguments) := by
  cases arguments with
  | nil =>
    rw [resolveArguments]
    exact Attempt.within_ok (by simp [valuesOperationCount])
  | cons argument arguments =>
    cases argument with
    | positional value span | named name value span =>
      rw [resolveArguments, valueStatementCount, ← Nat.add_zero (_ + _)]
      refine ((within_resolveExpr value).both (within_resolveArguments arguments)).bind
        fun pair _ => ?_
      exact Attempt.within_ok (by simp [valuesOperationCount])
    | lambda body span =>
      rw [resolveArguments, valueStatementCount]
      exact within_resolveArguments arguments

theorem within_resolveBlock {environment : Environment} {configured : Option QualifiedName}
    (arguments : List Argument) :
    (environment.resolveBlock configured arguments).Within blockOperationCount
      (lambdaStatementCount arguments) := by
  cases arguments with
  | nil =>
    rw [resolveBlock]
    exact Attempt.within_ok (by simp [blockOperationCount])
  | cons argument arguments =>
    cases argument with
    | positional value span =>
      rw [resolveBlock_positional, lambdaStatementCount]
      exact within_resolveBlock arguments
    | named name value span =>
      rw [resolveBlock_named, lambdaStatementCount]
      exact within_resolveBlock arguments
    | lambda body span =>
      obtain ⟨statements, bodySpan⟩ := body
      rw [resolveBlock_lambda, lambdaStatementCount]
      cases configured with
      | none => exact Attempt.within_ok (by simp [blockOperationCount])
      | some type =>
        have hinside := @count_resolveStatements (environment.enter type) statements
        rintro _ ⟨⟩
        dsimp only [blockOperationCount]
        exact ⟨by omega, fun hreported => by have := hinside.2 hreported; omega⟩

theorem within_resolveStatement {environment : Environment} (statement : Statement) :
    (environment.resolveStatement statement).Within Operation.count statement.count := by
  cases statement with
  | importName parts span =>
    rw [resolveStatement]
    exact Attempt.quiet_silent.within (by simp)
  | assignment receiver name target value span =>
    rw [resolveStatement, Statement.count, Nat.add_assoc]
    refine (within_resolveReceiver receiver).bind fun owner _ => ?_
    refine within_assignedProperty.bind fun found _ => ?_
    obtain ⟨found, property⟩ := found
    rw [Nat.add_left_comm]
    refine (within_resolveExpr value).bind fun resolved _ => ?_
    refine quiet_checkAssignable.bind_within fun _ _ => Attempt.within_ok ?_
    rw [Operation.count]
    dsimp only
    omega
  | localValue name value span =>
    rw [resolveStatement, Statement.count]
    split
    · exact Attempt.quiet_fail.within (by simp)
    · refine (within_resolveExpr value).bind fun resolved _ => Attempt.within_ok ?_
      exact Nat.le_of_eq (by rw [Operation.count])
  | expr value =>
    rw [resolveStatement, Statement.count]
    refine (within_resolveExpr value).bind fun resolved _ => Attempt.within_ok ?_
    exact Nat.le_of_eq Operation.count_ofExpr

theorem count_resolveStatements {environment : Environment} (statements : List Statement) :
    operationCount (environment.resolveStatements statements).operations ≤
        statementCount statements ∧
      ((environment.resolveStatements statements).diagnostics ≠ [] →
        operationCount (environment.resolveStatements statements).operations <
          statementCount statements) := by
  cases statements with
  | nil =>
    rw [resolveStatements]
    exact ⟨by simp [operationCount], fun hreported => absurd rfl hreported⟩
  | cons statement statements =>
    rw [resolveStatements, statementCount]
    dsimp only
    rw [operationCount_append]
    generalize environment.after (environment.resolveStatement statement).result statement =
      behind
    obtain ⟨hrest, hrestLess⟩ := @count_resolveStatements behind statements
    have hwithin := @within_resolveStatement environment statement
    have hpositive := statement.count_pos
    cases hresult : (environment.resolveStatement statement).result with
    | none =>
      simp only [Option.toList_none, operationCount]
      exact ⟨by omega, fun _ => by omega⟩
    | some operation =>
      obtain ⟨hfirst, hfirstLess⟩ := hwithin operation hresult
      simp only [Option.toList_some, operationCount]
      refine ⟨by omega, fun hreported => ?_⟩
      by_cases hquiet : (environment.resolveStatement statement).diagnostics = []
      · have hless := hrestLess (by simpa [hquiet] using hreported)
        omega
      · have hless := hfirstLess hquiet
        omega

end

end Environment

end ConfigScript
