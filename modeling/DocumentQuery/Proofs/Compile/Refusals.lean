import DocumentQuery.Compile.Pipeline
import DocumentQuery.Proofs.Success

/-!
# Why pipelines are refused

A pipeline that is refused is told why: the error carries the operator, the member or the count that is to
blame. There is one exception. Counts of skipped rows that add up to more than the largest count overflow,
and an overflow says nothing.

`QueryError.Explains` holds of every other error. All that an operator translates fails with errors that
explain, whatever it is given, and so does every operator that does not skip rows
(`Progress.step_failsOnly`). An overflow can therefore be traced back to the addition of two counts
(`Progress.step_eq_overflow`), and nothing else has to be known of the errors of a pipeline.

That a part fails only with errors that explain is composed along its definition: `Except.FailsOnly` holds of
a bind if it holds of what is bound and of what comes after, whatever the value, so no lemma here looks at the
data a pipeline is made of. One lemma for each function and in the order of the functions; a new function
needs one more, and a change of one does not reach the others.
-/

namespace DocumentQuery

open DocumentQuery.Except (FailsOnly failsOnly_ok failsOnly_error failsOnly_check failsOnly_mapM
  failsOnly_foldlM)

/-- Whether an error says what is to blame. All errors do but the overflow, which is told without the counts
that caused it. -/
def QueryError.Explains (e : QueryError) : Prop :=
  e ≠ .overflow

variable {m : Model}

/-! ## Fields and operands -/

/-- A type that the model does not have is refused by its name. -/
theorem Model.typeNamed_failsOnly (m : Model) (name : String) :
    FailsOnly QueryError.Explains (m.typeNamed name) := by
  unfold typeNamed
  split
  · exact failsOnly_ok _
  · exact failsOnly_error nofun

theorem Model.entityNamed_failsOnly (m : Model) (name : String) :
    FailsOnly QueryError.Explains (m.entityNamed name) := by
  unfold entityNamed
  refine (m.typeNamed_failsOnly name).bind fun type _ => ?_
  split
  · exact failsOnly_ok _
  · exact failsOnly_error nofun

theorem Lambda.scope_failsOnly (l : Lambda) (typeName : String) :
    FailsOnly QueryError.Explains (l.scope m typeName) :=
  (m.typeNamed_failsOnly typeName).bind fun _ _ => failsOnly_ok _

theorem Expr.memberNames_failsOnly (parameter : String) (e : Expr) :
    FailsOnly QueryError.Explains (e.memberNames parameter) := by
  fun_induction Expr.memberNames parameter e with
  | case1 operand ih => exact ih
  | case2 target name ih => exact ih.bind fun _ _ => failsOnly_ok _
  | case3 => exact failsOnly_ok _
  | case4 => exact failsOnly_error nofun

theorem FieldRef.locate_failsOnly (type : TypeDecl) (stored written names : List String) :
    FailsOnly QueryError.Explains (locate m type stored written names) := by
  induction names generalizing type stored written with
  | nil => exact failsOnly_error nofun
  | cons name rest ih =>
    rw [locate.eq_def]
    dsimp only
    split
    · split <;> exact failsOnly_error nofun
    split
    · exact failsOnly_error nofun
    split
    · split <;> exact failsOnly_ok _
    split
    next typeName _ =>
      split
      next e he => exact failsOnly_error (m.typeNamed_failsOnly typeName e he)
      next inner _ => exact ih inner _ _
    next => exact failsOnly_error nofun

theorem FieldRef.ofExpr_failsOnly (scope : Scope) (e : Expr) :
    FailsOnly QueryError.Explains (ofExpr m scope e) :=
  (e.memberNames_failsOnly scope.parameter).bind fun names _ => locate_failsOnly scope.type [] [] names

theorem Operand.ofExpr_failsOnly (e : Expr) : FailsOnly QueryError.Explains (ofExpr e) := by
  unfold ofExpr
  split
  · exact failsOnly_ok _
  · exact failsOnly_ok _
  · exact failsOnly_error nofun

/-- The rest of the operands and of the lists of candidates. -/
theorem Operand.ofList_failsOnly (e : Expr) : FailsOnly QueryError.Explains (ofList e) := by
  refine (ofExpr_failsOnly e).bind fun operand _ => ?_
  split
  · split
    · exact failsOnly_ok _
    · exact failsOnly_error nofun
  · exact failsOnly_ok _

theorem SortKey.ofLambda_failsOnly (typeName : String) (key : Lambda) (descending : Bool) :
    FailsOnly QueryError.Explains (ofLambda m typeName key descending) := by
  refine (key.scope_failsOnly typeName).bind fun scope _ => ?_
  refine (FieldRef.ofExpr_failsOnly scope key.body).bind fun field _ => ?_
  exact failsOnly_check nofun (failsOnly_ok _)

/-! ## Predicates -/

namespace Filter

mutual

theorem negate_failsOnly (f : Filter) : FailsOnly QueryError.Explains f.negate := by
  cases f with
  | clause c =>
    rw [negate]
    split
    · exact failsOnly_ok _
    · exact failsOnly_error nofun
  | or fs => exact (negateAll_failsOnly fs).bind fun _ _ => failsOnly_ok _
  | and fs => exact (negateAll_failsOnly fs).bind fun _ _ => failsOnly_ok _

theorem negateAll_failsOnly (fs : List Filter) : FailsOnly QueryError.Explains (negateAll fs) := by
  cases fs with
  | nil => exact failsOnly_ok []
  | cons f fs =>
    exact (negate_failsOnly f).bind fun _ _ => (negateAll_failsOnly fs).bind fun _ _ => failsOnly_ok _

end

theorem negateIf_failsOnly (negated : Bool) (f : Filter) :
    FailsOnly QueryError.Explains (f.negateIf negated) := by
  unfold negateIf
  split
  · exact f.negate_failsOnly
  · exact failsOnly_ok _

theorem ofComparison_failsOnly (scope : Scope) (op : FilterOp) (left right : Expr) :
    FailsOnly QueryError.Explains (ofComparison m scope op left right) := by
  have hclause (field : FieldRef) (op : FilterOp) (value : Operand) :
      FailsOnly QueryError.Explains (do
        if field.declared.isCollection then throw (.unsupported (.comparedCollection field.property))
        return Filter.clause ⟨field, op, value⟩) :=
    failsOnly_check nofun (failsOnly_ok _)
  have hsides (op : FilterOp) (field value : Expr) : FailsOnly QueryError.Explains (do
      let field ← FieldRef.ofExpr m scope field
      let value ← Operand.ofExpr value
      if field.declared.isCollection then throw (.unsupported (.comparedCollection field.property))
      return Filter.clause ⟨field, op, value⟩) :=
    (FieldRef.ofExpr_failsOnly scope field).bind fun field _ =>
      (Operand.ofExpr_failsOnly value).bind fun value _ => hclause field op value
  rw [ofComparison]
  cases left.isField scope.parameter <;> cases right.isField scope.parameter
  · exact failsOnly_error nofun
  · simpa only [bind_assoc, pure_bind] using hsides op.swapped right left
  · simpa only [bind_assoc, pure_bind] using hsides op left right
  · exact failsOnly_error nofun

theorem ofContains_failsOnly (scope : Scope) (source item : Expr) :
    FailsOnly QueryError.Explains (ofContains m scope source item) := by
  unfold ofContains
  split
  · refine (FieldRef.ofExpr_failsOnly scope source).bind fun field _ => ?_
    split
    · exact failsOnly_error nofun
    · exact (Operand.ofExpr_failsOnly item).bind fun _ _ => failsOnly_ok _
  · split
    · refine (FieldRef.ofExpr_failsOnly scope item).bind fun field _ => ?_
      exact (Operand.ofList_failsOnly source).bind fun _ _ => failsOnly_ok _
    · exact failsOnly_error nofun

theorem ofAny_failsOnly (scope : Scope) (source : Expr) (parameter : String) (body : Expr) :
    FailsOnly QueryError.Explains (ofAny m scope source parameter body) := by
  unfold ofAny
  refine failsOnly_check nofun ?_
  refine (FieldRef.ofExpr_failsOnly scope source).bind fun field _ => ?_
  refine failsOnly_check nofun ?_
  split
  · exact (Operand.ofList_failsOnly _).bind fun _ _ => failsOnly_ok _
  · exact failsOnly_error nofun

theorem ofCall_failsOnly (scope : Scope) (method : Method) (receiver : Option Expr)
    (args : List Expr) : FailsOnly QueryError.Explains (ofCall m scope method receiver args) := by
  unfold ofCall
  split
  · exact ofComparison_failsOnly scope _ _ _
  · exact ofComparison_failsOnly scope _ _ _
  · exact ofContains_failsOnly scope _ _
  · exact ofContains_failsOnly scope _ _
  · exact ofAny_failsOnly scope _ _ _
  · exact ofAny_failsOnly scope _ _ _
  · exact failsOnly_error nofun

theorem ofFlag_failsOnly (scope : Scope) (negated : Bool) (e : Expr) :
    FailsOnly QueryError.Explains (ofFlag m scope negated e) := by
  refine (FieldRef.ofExpr_failsOnly scope e).bind fun field _ => ?_
  split
  · exact failsOnly_ok _
  · exact failsOnly_error nofun

theorem ofExpr_failsOnly (scope : Scope) (negated : Bool) (e : Expr) :
    FailsOnly QueryError.Explains (ofExpr m scope negated e) := by
  fun_induction ofExpr m scope negated e with
  | case1 negated operand ih => exact ih
  | case2 negated operand ih => exact ih
  | case3 => exact (ofComparison_failsOnly scope _ _ _).bind fun f _ => negateIf_failsOnly _ f
  | case4 _ _ _ _ _ ihl ihr =>
    exact ihl.bind fun _ _ => ihr.bind fun _ _ => negateIf_failsOnly _ _
  | case5 => exact (ofCall_failsOnly scope _ _ _).bind fun f _ => negateIf_failsOnly _ f
  | case6 => exact ofFlag_failsOnly scope _ _
  | case7 => exact failsOnly_error nofun

theorem ofLambda_failsOnly (typeName : String) (predicate : Lambda) :
    FailsOnly QueryError.Explains (ofLambda m typeName predicate) := by
  refine (predicate.scope_failsOnly typeName).bind fun scope _ => ?_
  exact (ofExpr_failsOnly scope false predicate.body).bind fun _ _ => failsOnly_ok _

end Filter

/-! ## Projections -/

theorem ProjectedMember.ofExpr_failsOnly (scope : Scope) (name : Option String) (e : Expr) :
    FailsOnly QueryError.Explains (ofExpr m scope name e) := by
  unfold ofExpr
  refine failsOnly_check nofun ?_
  exact (FieldRef.ofExpr_failsOnly scope e).bind fun _ _ => failsOnly_ok _

theorem Projection.ofLambda_failsOnly (typeName : String) (selector : Lambda) :
    FailsOnly QueryError.Explains (ofLambda m typeName selector) := by
  refine (selector.scope_failsOnly typeName).bind fun scope _ => ?_
  dsimp only
  split
  · exact failsOnly_ok _
  split
  · exact (ProjectedMember.ofExpr_failsOnly scope _ _).bind fun _ _ => failsOnly_ok _
  · exact (failsOnly_mapM fun _ _ => ProjectedMember.ofExpr_failsOnly scope _ _).bind
      fun _ _ => failsOnly_ok _
  · exact failsOnly_error nofun

/-! ## Navigations -/

theorem NavigationChain.ofExpr_failsOnly (parameter : String) (e : Expr) :
    FailsOnly QueryError.Explains (ofExpr parameter e) := by
  fun_induction ofExpr parameter e with
  | case1 operand ih => exact ih
  | case2 target name htarget => exact failsOnly_ok _
  | case3 target name htarget ih =>
    exact ih.bind fun chain _ => failsOnly_check nofun (failsOnly_ok _)
  | case4 method receiver args ih =>
    refine ih.bind fun chain _ => ?_
    split
    · exact failsOnly_ok _
    · exact failsOnly_error nofun
  | case5 => exact failsOnly_error nofun

namespace Inclusion

theorem restrict_failsOnly (targetType : String) (i : Inclusion) (r : Restriction) :
    FailsOnly QueryError.Explains (restrict m targetType i r) := by
  cases r with
  | filter predicate =>
    rw [restrict]
    refine failsOnly_check nofun ?_
    exact (Filter.ofLambda_failsOnly targetType predicate).bind fun _ _ => failsOnly_ok _
  | orderBy key descending =>
    rw [restrict]
    refine failsOnly_check nofun ?_
    exact (SortKey.ofLambda_failsOnly targetType key descending).bind fun _ _ => failsOnly_ok _
  | thenBy key descending =>
    rw [restrict]
    refine failsOnly_check nofun ?_
    exact (SortKey.ofLambda_failsOnly targetType key descending).bind fun _ _ => failsOnly_ok _
  | skip n =>
    rw [restrict]
    refine failsOnly_check nofun ?_
    exact (Operand.ofExpr_failsOnly n).bind fun _ _ => failsOnly_ok _
  | take n =>
    rw [restrict]
    refine failsOnly_check nofun ?_
    exact (Operand.ofExpr_failsOnly n).bind fun _ _ => failsOnly_ok _

theorem insert_failsOnly (i : Inclusion) (level : List Inclusion) :
    FailsOnly QueryError.Explains (insert i level) := by
  induction level with
  | nil => exact failsOnly_ok _
  | cons existing level ih =>
    rw [insert]
    split
    · split
      · split
        · exact failsOnly_error nofun
        · exact failsOnly_ok _
      · exact failsOnly_ok _
    · exact ih.bind fun _ _ => failsOnly_ok _

theorem insertAt_failsOnly (i : Inclusion) (path : List String) (tree : List Inclusion) :
    FailsOnly QueryError.Explains (insertAt i path tree) := by
  induction path generalizing tree with
  | nil => exact insert_failsOnly i tree
  | cons name path ih =>
    refine failsOnly_mapM fun existing _ => ?_
    split
    · exact (ih existing.nested).bind fun _ _ => failsOnly_ok _
    · exact failsOnly_ok _

theorem typeAt_failsOnly (typeName : String) (path : List String) :
    FailsOnly QueryError.Explains (typeAt m typeName path) := by
  induction path generalizing typeName with
  | nil => exact failsOnly_ok _
  | cons name path ih =>
    rw [typeAt]
    split
    next e he => exact failsOnly_error (m.typeNamed_failsOnly typeName e he)
    next =>
      split
      next navigation _ => exact ih navigation.target
      next => exact failsOnly_error nofun

theorem addNames_failsOnly (restrictions : List Restriction) (typeName : String)
    (path : List String) (tree : List Inclusion) (names : List String) :
    FailsOnly QueryError.Explains (addNames m restrictions typeName path tree names) := by
  induction names generalizing typeName path tree with
  | nil => exact failsOnly_ok _
  | cons name rest ih =>
    rw [addNames]
    split
    next target _ =>
      have hrest (i : Inclusion) : FailsOnly QueryError.Explains (do
          let tree ← insertAt i path tree
          addNames m restrictions target (path ++ [name]) tree rest) :=
        (insertAt_failsOnly i path tree).bind fun tree _ => ih target (path ++ [name]) tree
      dsimp only
      split
      · exact (failsOnly_foldlM fun i r _ => restrict_failsOnly target i r).bind fun i _ => hrest i
      · exact hrest (plain name)
    next =>
      exact failsOnly_check nofun ((insertAt_failsOnly _ path tree).bind fun _ _ => failsOnly_ok _)

theorem addChain_failsOnly (rootType : String) (path : List String) (navigation : Lambda)
    (tree : List Inclusion) :
    FailsOnly QueryError.Explains (addChain m rootType path navigation tree) :=
  (typeAt_failsOnly rootType path).bind fun typeName _ =>
    (NavigationChain.ofExpr_failsOnly navigation.parameter navigation.body).bind
      fun chain _ => addNames_failsOnly chain.restrictions typeName path tree chain.names

end Inclusion

/-! ## Operators -/

theorem Operand.constantCount_failsOnly (operator : String) (operand : Operand) :
    FailsOnly QueryError.Explains (operand.constantCount operator) := by
  unfold constantCount
  split
  · split
    · exact failsOnly_ok _
    · exact failsOnly_error nofun
  · exact failsOnly_error nofun

namespace Template

theorem skipped_failsOnly (t : Template) : FailsOnly QueryError.Explains t.skipped := by
  unfold skipped
  split
  · exact failsOnly_ok _
  · exact Operand.constantCount_failsOnly "Skip" _

theorem keptAfter_failsOnly (t : Template) (extra : Nat) :
    FailsOnly QueryError.Explains (t.keptAfter extra) := by
  unfold keptAfter
  split
  · exact failsOnly_ok _
  · exact (Operand.constantCount_failsOnly "Take" _).bind fun _ _ => failsOnly_ok _

end Template

namespace Progress

variable {p : Progress}

theorem require_failsOnly (p : Progress) (limit : Stage) (op : Operator) :
    FailsOnly QueryError.Explains (p.require limit op) := by
  unfold require
  split
  · exact failsOnly_ok _
  · exact failsOnly_error nofun

theorem addPredicate_failsOnly (p : Progress) (predicate : Lambda) :
    FailsOnly QueryError.Explains (p.addPredicate m predicate) :=
  (Filter.ofLambda_failsOnly p.template.entityType predicate).bind fun _ _ => failsOnly_ok _

theorem addTerminalPredicate_failsOnly (p : Progress) (predicate : Option Lambda) :
    FailsOnly QueryError.Explains (p.addTerminalPredicate m predicate) := by
  cases predicate with
  | none => exact failsOnly_ok _
  | some predicate =>
    rw [addTerminalPredicate]
    split
    · exact p.addPredicate_failsOnly predicate
    · exact failsOnly_error nofun

theorem take_failsOnly (p : Progress) (count : Operand) :
    FailsOnly QueryError.Explains (p.take count) := by
  unfold take
  refine failsOnly_check nofun ?_
  split
  · exact failsOnly_ok _
  · exact (Operand.constantCount_failsOnly "Take" _).bind fun _ _ =>
      (Operand.constantCount_failsOnly "Take" count).bind fun _ _ => failsOnly_ok _

theorem isNullable_failsOnly (type : TypeDecl) (names : List String) :
    FailsOnly QueryError.Explains (isNullable m type names) := by
  induction names generalizing type with
  | nil => exact failsOnly_ok _
  | cons name rest ih =>
    rw [isNullable.eq_def]
    dsimp only
    split
    · exact failsOnly_ok _
    split
    · exact failsOnly_ok _
    · split
      · exact ih _
      next e he => exact failsOnly_error (m.typeNamed_failsOnly _ e he)
    · exact ih _

theorem aggregated_failsOnly (typeName : String) (kind : AggregateKind) (selector : Lambda) :
    FailsOnly QueryError.Explains (aggregated m typeName kind selector) := by
  refine (selector.scope_failsOnly typeName).bind fun scope _ => ?_
  refine (FieldRef.ofExpr_failsOnly scope selector.body).bind fun field _ => ?_
  refine failsOnly_check nofun ?_
  refine failsOnly_check nofun ?_
  refine (m.typeNamed_failsOnly typeName).bind fun root _ => ?_
  exact (isNullable_failsOnly root _).bind fun _ _ => failsOnly_ok _

theorem aggregate_failsOnly (p : Progress) (kind : AggregateKind) (selector : Option Lambda) :
    FailsOnly QueryError.Explains (p.aggregate m kind selector) := by
  unfold aggregate
  refine failsOnly_check nofun ?_
  dsimp only
  split
  · exact failsOnly_ok _
  · exact (aggregated_failsOnly _ kind _).bind fun _ _ => failsOnly_ok _

theorem pick_failsOnly (p : Progress) (which : Element) (orDefault : Bool) :
    FailsOnly QueryError.Explains (p.pick which orDefault) := by
  unfold pick
  split
  · exact failsOnly_ok _
  · exact failsOnly_ok _
  · dsimp only
    split
    · exact failsOnly_error nofun
    · exact failsOnly_ok _

theorem addInclude_failsOnly (p : Progress) (path : List String) (navigation : Lambda) :
    FailsOnly QueryError.Explains (p.addInclude m path navigation) :=
  (Inclusion.addChain_failsOnly _ path navigation _).bind fun _ _ => failsOnly_ok _

/-- Every operator that does not skip rows explains why it is refused, whatever the progress before and
whatever it is given. An overflow of a pipeline is thereby one of an operator that skips. -/
theorem step_failsOnly {op : Operator} (hskip : ∀ count, op ≠ .skip count) :
    FailsOnly QueryError.Explains (p.step m op) := by
  unfold step
  split
  · exact failsOnly_error nofun
  cases op with
  | filter predicate => exact (p.require_failsOnly _ _).bind fun _ _ => p.addPredicate_failsOnly predicate
  | orderBy key descending =>
    exact (p.require_failsOnly _ _).bind fun _ _ =>
      (SortKey.ofLambda_failsOnly _ key descending).bind fun _ _ => failsOnly_ok _
  | thenBy key descending =>
    refine (p.require_failsOnly _ _).bind fun _ _ => failsOnly_check nofun ?_
    exact (SortKey.ofLambda_failsOnly _ key descending).bind fun _ _ => failsOnly_ok _
  | skip count => exact absurd rfl (hskip count)
  | take count =>
    exact (p.require_failsOnly _ _).bind fun _ _ =>
      (Operand.ofExpr_failsOnly count).bind fun n _ => p.take_failsOnly n
  | takeLast count =>
    refine (p.require_failsOnly _ _).bind fun _ _ => failsOnly_check nofun ?_
    exact (Operand.ofExpr_failsOnly count).bind fun _ _ => failsOnly_ok _
  | select selector =>
    exact (p.require_failsOnly _ _).bind fun _ _ =>
      (Projection.ofLambda_failsOnly _ selector).bind fun _ _ => failsOnly_ok _
  | «include» navigation =>
    exact (p.require_failsOnly _ _).bind fun _ _ => p.addInclude_failsOnly [] navigation
  | thenInclude navigation =>
    refine (p.require_failsOnly _ _).bind fun _ _ => ?_
    split
    · exact p.addInclude_failsOnly _ navigation
    · exact failsOnly_error nofun
  | count predicate =>
    exact (p.addTerminalPredicate_failsOnly predicate).bind fun p _ => p.aggregate_failsOnly .count none
  | any predicate =>
    exact (p.addTerminalPredicate_failsOnly predicate).bind fun p _ => p.aggregate_failsOnly .any none
  | sum selector => exact p.aggregate_failsOnly .sum (some selector)
  | average selector => exact p.aggregate_failsOnly .average (some selector)
  | min selector => exact p.aggregate_failsOnly .min (some selector)
  | max selector => exact p.aggregate_failsOnly .max (some selector)
  | element which orDefault predicate =>
    exact (p.addTerminalPredicate_failsOnly predicate).bind fun p _ => p.pick_failsOnly which orDefault

end Progress

end DocumentQuery
