import DocumentQuery.Proofs.Predicate.Filtering

/-!
# What one operator does to a template

`Progress.step` folds an operator into a template, or refuses it. `Progress.Step` says, for each operator,
at which stage it is let in and what the template is afterwards, and `Progress.step_spec` that nothing else
happens. What is said of compiled pipelines is proved by cases on a step, and by induction on a run of
steps; the definitions of the operators are opened here only.

The constructors of `Progress.Step` carry what was checked on the way in: the stage, the translation of what
the operator was given, and for keys and tails that there is an ordering. So a proof by cases on a step has
the checks as hypotheses and does not look at the code of any operator. An operator that is added to the
language needs a constructor here, a case of `Progress.apply_spec`, and a case in what is said of all steps.

## Main results

* `Progress.step_spec` — an operator that is let in makes a step
* `Progress.run_of_step` — what every step keeps, every run of operators keeps
* `Pipeline.compile_spec` — a compiled template is the result of a run from the template of all documents
-/

namespace DocumentQuery

namespace Operator

/-- Whether an operator loads navigations. -/
def loads : Operator → Bool
  | .include _ => true
  | .thenInclude _ => true
  | _ => false

/-- The reduction an operator ends a pipeline in, with the predicate that restricts the rows before. -/
def reduction? : Operator → Option (AggregateKind × Option Lambda)
  | .count predicate => some (.count, predicate)
  | .any predicate => some (.any, predicate)
  | .sum _ => some (.sum, none)
  | .average _ => some (.average, none)
  | .min _ => some (.min, none)
  | .max _ => some (.max, none)
  | _ => none

end Operator

namespace Progress

variable {m : Model} {p p' : Progress}

/-- Restricts the rows of a template. A filter on the key may become the target of the template instead of one
of its filters. -/
def restrict (p : Progress) (filters : List Filter) : Progress :=
  { p with template := filters.foldl Template.addFilter p.template }

/-- Restricting the rows changes the target and the filters of a template, and nothing else. -/
theorem restrict_eq (p : Progress) (filters : List Filter) : ∃ target filters',
    p.restrict filters = { p with template := { p.template with target := target, filters := filters' } } := by
  obtain ⟨target, filters', h⟩ := Template.foldl_addFilter_eq filters p.template
  exact ⟨target, filters', by rw [restrict, h]⟩

/-! ## Paging -/

/-- Two counts are added exactly if their sum is a count. -/
theorem addSkips_eq_ok {prior extra total : Nat} :
    addSkips prior extra = .ok total ↔ prior + extra ≤ Number.maxCount ∧ total = prior + extra := by
  unfold addSkips
  split
  next h => exact ⟨fun ht => ⟨h, (Except.ok.inj ht).symm⟩, fun ht => ht.2 ▸ rfl⟩
  next h => exact ⟨fun ht => (nomatch ht), fun ht => absurd ht.1 h⟩

/-- The addition of two counts overflows if the sum is no count, and this is its only error. -/
theorem addSkips_eq_error {prior extra : Nat} {e : QueryError} :
    addSkips prior extra = .error e ↔ Number.maxCount < prior + extra ∧ e = .overflow := by
  unfold addSkips
  split
  next h => exact ⟨fun ht => (nomatch ht), fun ht => absurd h (Nat.not_le.mpr ht.1)⟩
  next h => exact ⟨fun ht => ⟨Nat.not_le.mp h, (Except.error.inj ht).symm⟩, fun ht => ht.2 ▸ rfl⟩

/-- What is kept after further rows are skipped: nothing is said if no limit was, and otherwise the limit is
known and becomes smaller by the skipped rows. -/
theorem keptAfter_eq_ok {t : Template} {extra : Nat} {limit : Option Operand}
    (h : t.keptAfter extra = .ok limit) : ∃ kept, (t.limit = none ∧ kept = none ∨
      ∃ operand n, t.limit = some operand ∧ operand.constantCount "Take" = .ok n ∧ kept = some n) ∧
      limit = kept.map fun n => .ofCount (n - extra) := by
  unfold Template.keptAfter at h
  split at h
  next hlimit =>
    cases h
    exact ⟨none, Or.inl ⟨hlimit, rfl⟩, rfl⟩
  next operand hlimit =>
    obtain ⟨n, hn, h⟩ := Except.bind_eq_ok.mp h
    cases h
    exact ⟨some n, Or.inr ⟨operand, n, hlimit, hn, rfl⟩, rfl⟩

/-- Skipping rows starts a page, or is added to the counts of a page that are known. Nothing is known of the
first count, which may be a parameter; the sum of counts that are added is itself a count. A tail excludes
both. -/
theorem skip_spec {count : Operand} (h : p.skip count = .ok p') :
    p.template.limitToLast = none ∧
      ((p.template.skip = none ∧ p.template.limit = none ∧ p' = p.page (some count) none) ∨
        ∃ extra prior kept, count.constantCount "Skip" = .ok extra ∧
          p.template.skipped = .ok prior ∧
          (p.template.limit = none ∧ kept = none ∨ ∃ operand n, p.template.limit = some operand ∧
            operand.constantCount "Take" = .ok n ∧ kept = some n) ∧
          prior + extra ≤ Number.maxCount ∧
          p' = p.page (some (.ofCount (prior + extra))) (kept.map fun n => .ofCount (n - extra))) := by
  unfold skip at h
  obtain ⟨htail, h⟩ := Except.check_eq_ok.mp h
  refine ⟨Option.not_isSome_iff_eq_none.mp htail, ?_⟩
  split at h
  next hfirst =>
    cases h
    rw [Bool.and_eq_true, Option.isNone_iff_eq_none, Option.isNone_iff_eq_none] at hfirst
    exact Or.inl ⟨hfirst.1, hfirst.2, rfl⟩
  next =>
    obtain ⟨extra, hextra, h⟩ := Except.bind_eq_ok.mp h
    obtain ⟨prior, hprior, h⟩ := Except.bind_eq_ok.mp h
    obtain ⟨total, hadd, h⟩ := Except.bind_eq_ok.mp h
    obtain ⟨limit, hlimit, h⟩ := Except.bind_eq_ok.mp h
    cases h
    obtain ⟨hsum, rfl⟩ := addSkips_eq_ok.mp hadd
    obtain ⟨kept, hkept, rfl⟩ := keptAfter_eq_ok hlimit
    exact Or.inr ⟨extra, prior, kept, hextra, hprior, hkept, hsum, rfl⟩

/-- Keeping rows limits a page, or the smaller of two known counts does. -/
theorem take_spec {count : Operand} (h : p.take count = .ok p') :
    p.template.limitToLast = none ∧
      ((p.template.limit = none ∧ p' = p.page p.template.skip (some count)) ∨
        ∃ operand previous next, p.template.limit = some operand ∧
          operand.constantCount "Take" = .ok previous ∧ count.constantCount "Take" = .ok next ∧
          p' = p.page p.template.skip (some (.ofCount (min previous next)))) := by
  unfold take at h
  obtain ⟨htail, h⟩ := Except.check_eq_ok.mp h
  refine ⟨Option.not_isSome_iff_eq_none.mp htail, ?_⟩
  split at h
  next hlimit =>
    cases h
    exact Or.inl ⟨hlimit, rfl⟩
  next operand hlimit =>
    obtain ⟨previous, hprevious, h⟩ := Except.bind_eq_ok.mp h
    obtain ⟨next, hnext, h⟩ := Except.bind_eq_ok.mp h
    cases h
    exact Or.inr ⟨operand, previous, next, hlimit, hprevious, hnext, rfl⟩

/-- Skipping rows sets the counts of a page, and nothing else. -/
theorem skip_eq {count : Operand} (h : p.skip count = .ok p') : ∃ skip limit, p' = p.page skip limit := by
  obtain ⟨-, ⟨-, -, rfl⟩ | ⟨_, _, _, -, -, -, -, rfl⟩⟩ := skip_spec h
  · exact ⟨_, _, rfl⟩
  · exact ⟨_, _, rfl⟩

/-- Keeping rows sets the count of kept rows, and nothing else. -/
theorem take_eq {count : Operand} (h : p.take count = .ok p') :
    ∃ limit, p' = p.page p.template.skip limit := by
  obtain ⟨-, ⟨-, rfl⟩ | ⟨_, _, _, -, -, -, rfl⟩⟩ := take_spec h
  · exact ⟨_, rfl⟩
  · exact ⟨_, rfl⟩

/-! ## Operators that end a pipeline -/

/-- Whether a predicate of a terminal operator restricts the rows. -/
inductive Restricts (m : Model) (p : Progress) : Option Lambda → Progress → Prop
  | none : Restricts m p none p
  | some {predicate : Lambda} {filters : List Filter} (stage : p.stage.within .ordered = true)
      (translated : Filter.ofLambda m p.template.entityType predicate = .ok filters) :
      Restricts m p (some predicate) (p.restrict filters)

/-- A predicate changes how the rows are addressed and filtered, and nothing else. -/
theorem Restricts.eq {predicate : Option Lambda} (h : Restricts m p predicate p') : ∃ target filters,
    p' = { p with template := { p.template with target := target, filters := filters } } := by
  cases h with
  | none => exact ⟨p.template.target, p.template.filters, rfl⟩
  | some _ _ => exact p.restrict_eq _

/-- A predicate is translated, and its filters restrict the rows. -/
theorem addPredicate_spec {predicate : Lambda} (h : p.addPredicate m predicate = .ok p') :
    ∃ filters, Filter.ofLambda m p.template.entityType predicate = .ok filters ∧
      p' = p.restrict filters := by
  obtain ⟨filters, hfilters, h⟩ := Except.bind_eq_ok.mp h
  cases h
  exact ⟨filters, hfilters, rfl⟩

/-- A terminal operator restricts the rows by its predicate, if it has one. -/
theorem addTerminalPredicate_spec {predicate : Option Lambda}
    (h : p.addTerminalPredicate m predicate = .ok p') : Restricts m p predicate p' := by
  cases predicate with
  | none =>
    cases h
    exact .none
  | some predicate =>
    simp only [addTerminalPredicate] at h
    split at h
    next hstage =>
      obtain ⟨filters, hfilters, rfl⟩ := addPredicate_spec h
      exact .some hstage hfilters
    · cases h

/-- A reduction ends a pipeline that is not projected, and says which reduction it is. -/
theorem aggregate_spec {kind : AggregateKind} {selector : Option Lambda}
    (h : p.aggregate m kind selector = .ok p') :
    p.stage ≠ .projected ∧ ∃ aggregation, aggregation.kind = kind ∧
      p' = { p with template := { p.template with aggregation := some aggregation },
                    stage := .terminal } := by
  unfold aggregate at h
  obtain ⟨hstage, h⟩ := Except.check_eq_ok.mp h
  refine ⟨hstage, ?_⟩
  split at h
  · cases h
    exact ⟨_, rfl, rfl⟩
  · obtain ⟨⟨field, nullable⟩, -, h⟩ := Except.bind_eq_ok.mp h
    cases h
    exact ⟨_, rfl, rfl⟩

/-- An element ends a pipeline, the last one only where there is an ordering to turn around. -/
theorem pick_spec {which : Element} {orDefault : Bool} (h : p.pick which orDefault = .ok p') :
    ∃ cardinality, (∀ orDefault, cardinality = .last orDefault → p.template.orderBy ≠ []) ∧
      p' = { p with template := { p.template with cardinality := cardinality }, stage := .terminal } := by
  unfold pick at h
  dsimp only at h
  split at h
  · cases h
    exact ⟨.first orDefault, fun _ => nofun, rfl⟩
  · cases h
    exact ⟨.single orDefault, fun _ => nofun, rfl⟩
  · split at h
    · cases h
    next hordered =>
      cases h
      exact ⟨_, fun _ _ hnil => hordered (List.isEmpty_iff.mpr hnil), rfl⟩

/-- Loading navigations changes the tree of includes and where the last include ended, and nothing else. -/
theorem addInclude_spec {path : List String} {navigation : Lambda}
    (h : p.addInclude m path navigation = .ok p') :
    ∃ tree path', p' = { p with template := { p.template with includes := tree },
                                lastInclude := some path' } := by
  unfold addInclude at h
  obtain ⟨⟨tree, path'⟩, -, h⟩ := Except.bind_eq_ok.mp h
  cases h
  exact ⟨tree, path', rfl⟩

/-! ## Steps -/

/-- What an operator that is let in does to a template under construction. Each constructor has the stage at
which the operator is let in, what it was translated to, and the template afterwards. -/
inductive Step (m : Model) (p : Progress) : Operator → Progress → Prop
  | filter {predicate : Lambda} {filters : List Filter} (stage : p.stage.within .ordered = true)
      (translated : Filter.ofLambda m p.template.entityType predicate = .ok filters) :
      Step m p (.filter predicate) (p.restrict filters)
  | orderBy {lambda : Lambda} {descending : Bool} {key : SortKey}
      (stage : p.stage.within .ordered = true)
      (translated : SortKey.ofLambda m p.template.entityType lambda descending = .ok key) :
      Step m p (.orderBy lambda descending)
        { p with template := { p.template with orderBy := [key] }, stage := .ordered }
  | thenBy {lambda : Lambda} {descending : Bool} {key : SortKey}
      (stage : p.stage.within .ordered = true) (ordered : p.template.orderBy ≠ [])
      (translated : SortKey.ofLambda m p.template.entityType lambda descending = .ok key) :
      Step m p (.thenBy lambda descending)
        { p with template := { p.template with orderBy := p.template.orderBy ++ [key] } }
  | skip {expr : Expr} {count : Operand} {p' : Progress} (stage : p.stage.within .paged = true)
      (translated : Operand.ofExpr expr = .ok count) (skipped : p.skip count = .ok p') :
      Step m p (.skip expr) p'
  | take {expr : Expr} {count : Operand} {p' : Progress} (stage : p.stage.within .paged = true)
      (translated : Operand.ofExpr expr = .ok count) (taken : p.take count = .ok p') :
      Step m p (.take expr) p'
  | takeLast {expr : Expr} {count : Operand} (stage : p.stage.within .ordered = true)
      (ordered : p.template.orderBy ≠ []) (translated : Operand.ofExpr expr = .ok count) :
      Step m p (.takeLast expr)
        { p with template := { p.template with limitToLast := some count }, stage := .paged }
  | select {selector : Lambda} {projection : Projection} (stage : p.stage.within .paged = true)
      (translated : Projection.ofLambda m p.template.entityType selector = .ok projection) :
      Step m p (.select selector)
        { p with template := { p.template with projection := projection }, stage := .projected }
  | loads {op : Operator} {tree : List Inclusion} {path : List String} (loads : op.loads = true)
      (stage : p.stage.within .paged = true) :
      Step m p op { p with template := { p.template with includes := tree }, lastInclude := some path }
  | reduce {op : Operator} {predicate : Option Lambda} {restricted : Progress}
      {aggregation : Aggregation} (reduces : op.reduction? = some (aggregation.kind, predicate))
      (restricts : Restricts m p predicate restricted) (stage : restricted.stage ≠ .projected) :
      Step m p op { restricted with
        template := { restricted.template with aggregation := some aggregation }, stage := .terminal }
  | pick {which : Element} {orDefault : Bool} {predicate : Option Lambda} {restricted : Progress}
      {cardinality : Cardinality} (restricts : Restricts m p predicate restricted)
      (ordered : ∀ orDefault, cardinality = .last orDefault → restricted.template.orderBy ≠ []) :
      Step m p (.element which orDefault predicate) { restricted with
        template := { restricted.template with cardinality := cardinality }, stage := .terminal }

/-- An operator that is let in has not come too late. -/
theorem within_of_require {limit : Stage} {op : Operator} {rest : Unit → Except QueryError Progress}
    (h : (p.require limit op >>= rest) = .ok p') :
    p.stage.within limit = true ∧ rest () = .ok p' := by
  obtain ⟨_, hstage, h⟩ := Except.bind_eq_ok.mp h
  unfold require at hstage
  split at hstage
  next hwithin => exact ⟨hwithin, h⟩
  · cases hstage

/-- What continues or turns around an ordering is let in only if there is one. -/
theorem ordered_of_check {e : QueryError} {rest : PUnit → Except QueryError Progress}
    (h : (if p.template.orderBy.isEmpty then (throw e : Except QueryError PUnit) >>= rest
      else rest ⟨⟩) = .ok p') :
    p.template.orderBy ≠ [] ∧ rest ⟨⟩ = .ok p' := by
  obtain ⟨hordered, h⟩ := Except.check_eq_ok.mp h
  exact ⟨fun hnil => hordered (List.isEmpty_iff.mpr hnil), h⟩

namespace Step

variable {lambda selector navigation predicate : Lambda} {terminal : Option Lambda} {descending : Bool}
  {expr : Expr} {kind : AggregateKind} {op : Operator}

theorem of_filter (h : p.apply m (.filter predicate) = .ok p') : Step m p (.filter predicate) p' := by
  obtain ⟨hstage, h⟩ := within_of_require h
  obtain ⟨filters, hfilters, rfl⟩ := addPredicate_spec h
  exact .filter hstage hfilters

theorem of_orderBy (h : p.apply m (.orderBy lambda descending) = .ok p') :
    Step m p (.orderBy lambda descending) p' := by
  obtain ⟨hstage, h⟩ := within_of_require h
  obtain ⟨key, hkey, h⟩ := Except.bind_eq_ok.mp h
  cases h
  exact .orderBy hstage hkey

theorem of_thenBy (h : p.apply m (.thenBy lambda descending) = .ok p') :
    Step m p (.thenBy lambda descending) p' := by
  obtain ⟨hstage, h⟩ := within_of_require h
  obtain ⟨hordered, h⟩ := ordered_of_check h
  obtain ⟨key, hkey, h⟩ := Except.bind_eq_ok.mp h
  cases h
  exact .thenBy hstage hordered hkey

theorem of_skip (h : p.apply m (.skip expr) = .ok p') : Step m p (.skip expr) p' := by
  obtain ⟨hstage, h⟩ := within_of_require h
  obtain ⟨count, hcount, h⟩ := Except.bind_eq_ok.mp h
  exact .skip hstage hcount h

theorem of_take (h : p.apply m (.take expr) = .ok p') : Step m p (.take expr) p' := by
  obtain ⟨hstage, h⟩ := within_of_require h
  obtain ⟨count, hcount, h⟩ := Except.bind_eq_ok.mp h
  exact .take hstage hcount h

theorem of_takeLast (h : p.apply m (.takeLast expr) = .ok p') : Step m p (.takeLast expr) p' := by
  obtain ⟨hstage, h⟩ := within_of_require h
  obtain ⟨hordered, h⟩ := ordered_of_check h
  obtain ⟨count, hcount, h⟩ := Except.bind_eq_ok.mp h
  cases h
  exact .takeLast hstage hordered hcount

theorem of_select (h : p.apply m (.select selector) = .ok p') : Step m p (.select selector) p' := by
  obtain ⟨hstage, h⟩ := within_of_require h
  obtain ⟨projection, hprojection, h⟩ := Except.bind_eq_ok.mp h
  cases h
  exact .select hstage hprojection

theorem of_include (h : p.apply m (.include navigation) = .ok p') :
    Step m p (.include navigation) p' := by
  obtain ⟨hstage, h⟩ := within_of_require h
  obtain ⟨tree, path, rfl⟩ := addInclude_spec h
  exact .loads rfl hstage

theorem of_thenInclude (h : p.apply m (.thenInclude navigation) = .ok p') :
    Step m p (.thenInclude navigation) p' := by
  obtain ⟨hstage, h⟩ := within_of_require h
  split at h
  · obtain ⟨tree, path, rfl⟩ := addInclude_spec h
    exact .loads rfl hstage
  · cases h

/-- A reduction is made of the rows that the predicate of its operator leaves. -/
theorem of_reduction {restricted : Progress} {lambda : Option Lambda}
    (hop : op.reduction? = some (kind, terminal)) (hrestricts : Restricts m p terminal restricted)
    (h : restricted.aggregate m kind lambda = .ok p') : Step m p op p' := by
  obtain ⟨hstage, aggregation, rfl, rfl⟩ := aggregate_spec h
  exact .reduce hop hrestricts hstage

theorem of_element {which : Element} {orDefault : Bool}
    (h : p.apply m (.element which orDefault terminal) = .ok p') :
    Step m p (.element which orDefault terminal) p' := by
  obtain ⟨restricted, hrestricts, h⟩ := Except.bind_eq_ok.mp h
  obtain ⟨cardinality, hordered, rfl⟩ := pick_spec h
  exact .pick (addTerminalPredicate_spec hrestricts) hordered

end Step

/-- An operator that is applied makes a step; the cases are those of the operators. -/
theorem apply_spec {op : Operator} (h : p.apply m op = .ok p') : Step m p op p' := by
  cases op with
  | filter _ => exact .of_filter h
  | orderBy _ _ => exact .of_orderBy h
  | thenBy _ _ => exact .of_thenBy h
  | skip _ => exact .of_skip h
  | take _ => exact .of_take h
  | takeLast _ => exact .of_takeLast h
  | select _ => exact .of_select h
  | «include» _ => exact .of_include h
  | thenInclude _ => exact .of_thenInclude h
  | count _ | any _ =>
    obtain ⟨restricted, hrestricts, h⟩ := Except.bind_eq_ok.mp h
    exact .of_reduction rfl (addTerminalPredicate_spec hrestricts) h
  | sum _ | average _ | min _ | max _ =>
    rw [apply] at h
    exact .of_reduction rfl .none h
  | element _ _ _ => exact .of_element h

/-- An operator that is let in makes a step, and only as long as the pipeline has not ended. -/
theorem step_spec {op : Operator} (h : p.step m op = .ok p') :
    p.stage ≠ .terminal ∧ Step m p op p' := by
  unfold step at h
  split at h
  · cases h
  next hopen => exact ⟨hopen, apply_spec h⟩

/-- A step leaves the entity type and its key. -/
theorem Step.root {op : Operator} (h : Step m p op p') :
    p'.template.entityType = p.template.entityType ∧
      p'.template.keyProperty = p.template.keyProperty := by
  cases h with
  | filter _ _ =>
    obtain ⟨_, _, h⟩ := p.restrict_eq _
    rw [h]
    exact ⟨rfl, rfl⟩
  | skip _ _ h =>
    obtain ⟨_, _, rfl⟩ := skip_eq h
    exact ⟨rfl, rfl⟩
  | take _ _ h =>
    obtain ⟨_, rfl⟩ := take_eq h
    exact ⟨rfl, rfl⟩
  | reduce _ h _ =>
    obtain ⟨_, _, rfl⟩ := h.eq
    exact ⟨rfl, rfl⟩
  | pick h _ =>
    obtain ⟨_, _, rfl⟩ := h.eq
    exact ⟨rfl, rfl⟩
  | _ => exact ⟨rfl, rfl⟩

/-- A step leaves how many elements are asked for, or it ends the pipeline in an element, the last one only
of an ordering. -/
theorem Step.cardinality {op : Operator} (h : Step m p op p') :
    p'.template.cardinality = p.template.cardinality ∨ p'.stage = .terminal ∧
      ∀ orDefault, p'.template.cardinality = .last orDefault → p'.template.orderBy ≠ [] := by
  cases h with
  | filter _ _ =>
    obtain ⟨_, _, h⟩ := p.restrict_eq _
    exact Or.inl (by rw [h])
  | skip _ _ h =>
    obtain ⟨_, _, rfl⟩ := skip_eq h
    exact Or.inl rfl
  | take _ _ h =>
    obtain ⟨_, rfl⟩ := take_eq h
    exact Or.inl rfl
  | reduce _ h _ =>
    obtain ⟨_, _, rfl⟩ := h.eq
    exact Or.inl rfl
  | pick _ hordered => exact Or.inr ⟨rfl, hordered⟩
  | _ => exact Or.inl rfl

/-! ## Runs of operators -/

/-- What every step keeps, every run of operators keeps. A step is made only as long as the pipeline has not
ended, which an invariant may need. -/
theorem run_of_step {P : Progress → Prop}
    (hstep : ∀ p op p', p.stage ≠ .terminal → Step m p op p' → P p → P p')
    {operators : List Operator} (h : operators.foldlM (step m) p = .ok p') (hp : P p) : P p' := by
  induction operators generalizing p with
  | nil =>
    cases h
    exact hp
  | cons op operators ih =>
    rw [List.foldlM_cons] at h
    obtain ⟨next, hnext, hrest⟩ := Except.bind_eq_ok.mp h
    obtain ⟨hopen, hnext⟩ := step_spec hnext
    exact ih hrest (hstep p op next hopen hnext hp)

/-- A run of operators and one more is the run and a step. -/
theorem run_append_singleton {start : Progress} {operators : List Operator} {op : Operator}
    (h : (operators ++ [op]).foldlM (step m) start = .ok p') :
    ∃ p, operators.foldlM (step m) start = .ok p ∧ Step m p op p' := by
  rw [List.foldlM_append] at h
  obtain ⟨p, hp, h⟩ := Except.bind_eq_ok.mp h
  rw [List.foldlM_cons] at h
  obtain ⟨_, hstep, h⟩ := Except.bind_eq_ok.mp h
  cases h
  exact ⟨p, hp, (step_spec hstep).2⟩

/-- An element is asked for only at the end, and the last one only of an ordering. -/
structure LastOrdered (p : Progress) : Prop where
  /-- Before the end all elements are asked for. -/
  sequence : p.stage ≠ .terminal → p.template.cardinality = .sequence
  /-- The last element is asked for only of an ordering. -/
  ordered : ∀ orDefault, p.template.cardinality = .last orDefault → p.template.orderBy ≠ []

/-- Every step keeps this: the operators before the end leave the cardinality, and the last one checks. -/
theorem Step.lastOrdered {op : Operator} (h : Step m p op p') (hopen : p.stage ≠ .terminal)
    (hp : p.LastOrdered) : p'.LastOrdered := by
  rcases h.cardinality with hsame | ⟨hend, hordered⟩
  · have hsequence : p'.template.cardinality = .sequence := hsame.trans (hp.sequence hopen)
    exact ⟨fun _ => hsequence, fun orDefault hlast => (nomatch hsequence.symm.trans hlast)⟩
  · exact ⟨fun h => absurd hend h, hordered⟩

end Progress

namespace Pipeline

variable {m : Model} {pipeline : Pipeline} {t : Template}

/-- A pipeline is compiled by running its operators on the template of all documents of its root, which is an
entity type of the model with a collection and a key. -/
theorem compile_spec (h : pipeline.compile m = .ok t) :
    ∃ root collection key done, m.entityNamed pipeline.root = .ok root ∧
      root.kind = .entity collection key ∧
      pipeline.operators.foldlM (Progress.step m)
        ⟨Template.all collection root.name key, .filtering, none⟩ = .ok done ∧ done.template = t := by
  unfold compile at h
  obtain ⟨root, hroot, h⟩ := Except.bind_eq_ok.mp h
  split at h
  next collection key hkind =>
    obtain ⟨done, hdone, h⟩ := Except.bind_eq_ok.mp h
    cases h
    exact ⟨root, collection, key, done, hroot, hkind, hdone, rfl⟩
  · cases h

/-- A compiled query for the last element is ordered. -/
theorem ordered_of_last (h : pipeline.compile m = .ok t) {orDefault : Bool}
    (hlast : t.cardinality = .last orDefault) : t.orderBy ≠ [] := by
  obtain ⟨root, collection, key, done, -, -, hrun, rfl⟩ := compile_spec h
  have hstart : Progress.LastOrdered ⟨Template.all collection root.name key, .filtering, none⟩ :=
    ⟨fun _ => rfl, fun _ => nofun⟩
  exact (Progress.run_of_step (fun _ _ _ hopen hstep => hstep.lastOrdered hopen) hrun hstart).ordered
    orDefault hlast

end Pipeline

end DocumentQuery
