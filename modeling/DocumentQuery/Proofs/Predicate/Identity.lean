import DocumentQuery.Proofs.Predicate.Filtering

/-!
# Fields that are the identity

A lookup takes the number of a variant for an identity only if the variants are stored under the name of the
identity (`Template.SpelledAlike`). Here this is read off the model. A path of several names has a point
in it and is never the name of the identity, so the field of a clause is the identity only if it is the
key, which has no enum, or a property of the root type that is stored under this name. Unless such a
property holds variants, every list of predicates is filtered by as it reads
(`Template.spelledAlike_of_declared`).

The condition on the model is about declared properties, and can be checked once for a model. What predicates
do is of no concern then: their fields are found by following the model, whatever the expressions around them
are.
-/

namespace DocumentQuery

variable {m : Model} {scope : Scope}

/-! ## The fields of a type -/

namespace FieldRef

/-- A path of several names is not the name of the identity. -/
theorem joinPath_ne_documentIdPath {stored : List String} (h : stored ≠ []) (name : String) :
    joinPath (stored ++ [name]) ≠ documentIdPath := by
  intro heq
  have hmem : '.' ∈ (joinPath (stored ++ [name])).toList := by
    rw [joinPath, String.intercalate_append_of_ne_nil h (List.cons_ne_nil _ _), String.toList_append,
      String.toList_append]
    exact List.mem_append_left _ (List.mem_append_right _ (List.mem_singleton_self _))
  rw [heq] at hmem
  exact absurd hmem (by decide)

/-- A field that is the identity holds no variants, unless a property of the root type does that is stored
under the name of the identity. -/
theorem enumName_of_locate {type : TypeDecl} {stored written names : List String} {field : FieldRef}
    (h : locate m type stored written names = .ok field) (hid : field.isDocumentId = true)
    (htype : stored = [] → ∀ p ∈ type.properties, p.storedName = documentIdPath →
      p.declared.enumName? = none) : field.enumName = none := by
  induction names generalizing type stored written with
  | nil => exact nomatch h
  | cons name rest ih =>
    unfold locate at h
    split at h
    · split at h <;> exact nomatch h
    next property hproperty =>
      split at h
      · exact nomatch h
      split at h
      -- the last name is the key, or a property of the type the names have led to
      · split at h
        · cases h
          rfl
        · cases h
          have hpath : joinPath (stored ++ [property.storedName]) = documentIdPath := eq_of_beq hid
          by_cases hstored : stored = []
          · subst hstored
            exact htype rfl property (List.mem_of_find?_eq_some hproperty)
              (String.intercalate_singleton.symm.trans hpath)
          · exact absurd hpath (joinPath_ne_documentIdPath hstored _)
      -- the names after the first are looked up below it
      · split at h
        · split at h
          · exact nomatch h
          · exact ih h fun hnil => absurd hnil (List.append_ne_nil_of_right_ne_nil _ (by simp))
        · exact nomatch h

end FieldRef

/-! ## The fields of a predicate -/

/-- Fields that an expression of a scope reads, be it one of a predicate or any other. -/
def Scope.Reads (m : Model) (scope : Scope) (field : FieldRef) : Prop :=
  ∃ e, FieldRef.ofExpr m scope e = .ok field

theorem Scope.reads_of_mem {e : Expr} {field : FieldRef}
    (h : (FieldRef.ofExpr m scope e).toOption = some field) : scope.Reads m field :=
  ⟨e, Except.mem_toOption.mp h⟩

namespace Test

variable {t : Test}

/-- The field of a comparison is read by one of its sides. -/
theorem reads_of_ofComparison? {op : FilterOp} {left right : Expr}
    (h : ofComparison? m scope op left right = some t) : scope.Reads m t.clause.field := by
  unfold ofComparison? at h
  split at h
  · obtain ⟨field, hfield, h⟩ := Option.bind_eq_some_iff.mp h
    obtain ⟨operand, -, h⟩ := Option.bind_eq_some_iff.mp h
    cases h
    exact Scope.reads_of_mem hfield
  · obtain ⟨field, hfield, h⟩ := Option.bind_eq_some_iff.mp h
    obtain ⟨operand, -, h⟩ := Option.bind_eq_some_iff.mp h
    cases h
    exact Scope.reads_of_mem hfield
  · exact nomatch h

theorem reads_of_ofContains? {source item : Expr} (h : ofContains? m scope source item = some t) :
    scope.Reads m t.clause.field := by
  unfold ofContains? at h
  split at h
  · obtain ⟨field, hfield, h⟩ := Option.bind_eq_some_iff.mp h
    obtain ⟨operand, -, h⟩ := Option.bind_eq_some_iff.mp h
    cases h
    exact Scope.reads_of_mem hfield
  · obtain ⟨field, hfield, h⟩ := Option.bind_eq_some_iff.mp h
    obtain ⟨operand, -, h⟩ := Option.bind_eq_some_iff.mp h
    cases h
    exact Scope.reads_of_mem hfield

theorem reads_of_ofAny? {source body : Expr} {parameter : String}
    (h : ofAny? m scope source parameter body = some t) : scope.Reads m t.clause.field := by
  obtain ⟨field, hfield, h⟩ := Option.bind_eq_some_iff.mp h
  obtain ⟨list, -, h⟩ := Option.bind_eq_some_iff.mp h
  obtain ⟨operand, -, h⟩ := Option.bind_eq_some_iff.mp h
  cases h
  exact Scope.reads_of_mem hfield

/-- The field of a test is read by an expression. -/
theorem reads_of_ofExpr? {e : Expr} (h : ofExpr? m scope e = some t) :
    scope.Reads m t.clause.field := by
  unfold ofExpr? at h
  split at h
  · obtain ⟨op, -, h⟩ := Option.bind_eq_some_iff.mp h
    exact reads_of_ofComparison? h
  · exact reads_of_ofComparison? h
  · exact reads_of_ofComparison? h
  · exact reads_of_ofContains? h
  · exact reads_of_ofContains? h
  · exact reads_of_ofAny? h
  · exact reads_of_ofAny? h
  · obtain ⟨field, hfield, rfl⟩ := Option.map_eq_some_iff.mp h
    exact Scope.reads_of_mem hfield
  · exact nomatch h

end Test

namespace Filter

/-- Negation on demand leaves the fields as they are. -/
theorem reads_of_negateIf {negated : Bool} {f f' : Filter} (h : f.negateIf negated = .ok f')
    (hreads : ∀ c ∈ f.clauses, scope.Reads m c.field) : ∀ c ∈ f'.clauses, scope.Reads m c.field := by
  cases negated with
  | false =>
    cases h
    exact hreads
  | true =>
    intro c' hc'
    obtain ⟨c, hc, hopposite⟩ := exists_of_forall₂ (negate_clauses f h).flip hc'
    have hfield : c'.field = c.field := hopposite.field
    rw [hfield]
    exact hreads c hc

/-- The fields of a filter are read by expressions of the predicate. -/
theorem reads_of_ofExpr : (e : Expr) → (negated : Bool) → (f : Filter) →
    ofExpr m scope negated e = .ok f → ∀ c ∈ f.clauses, scope.Reads m c.field
  | .convert operand => fun negated f h => reads_of_ofExpr operand negated f h
  | .not operand => fun negated f h => reads_of_ofExpr operand (!negated) f h
  | .binary op left right => fun negated f h => by
    rw [ofExpr] at h
    cases hop : op.comparison? with
    | some comparison =>
      rw [hop] at h
      obtain ⟨g, hg, hnegate⟩ := Except.bind_eq_ok.mp h
      obtain ⟨t, ht, rfl⟩ := ofComparison_eq_ok hg
      refine reads_of_negateIf hnegate fun c hc => ?_
      rw [List.mem_singleton.mp hc]
      exact Test.reads_of_ofComparison? ht
    -- not a comparison, so a conjunction or a disjunction, whose clauses are those of its sides
    | none =>
      rw [hop] at h
      obtain ⟨l, hl, h⟩ := Except.bind_eq_ok.mp h
      obtain ⟨r, hr, hnegate⟩ := Except.bind_eq_ok.mp h
      have hnegate : (join op l r).negateIf negated = .ok f := hnegate
      refine reads_of_negateIf hnegate fun c hc => ?_
      rw [clauses_join] at hc
      exact (List.mem_append.mp hc).elim (reads_of_ofExpr left false l hl c)
        (reads_of_ofExpr right false r hr c)
  | .call method receiver args => fun negated f h => by
    rw [ofExpr] at h
    obtain ⟨g, hg, hnegate⟩ := Except.bind_eq_ok.mp h
    obtain ⟨t, ht, rfl⟩ := ofCall_eq_ok hg
    refine reads_of_negateIf hnegate fun c hc => ?_
    rw [List.mem_singleton.mp hc]
    exact Test.reads_of_ofExpr? ht
  | .member target name => fun negated f h => by
    rw [ofExpr] at h
    obtain ⟨field, hfield, rfl⟩ := ofFlag_eq_ok h
    intro c hc
    rw [List.mem_singleton.mp hc]
    exact ⟨_, hfield⟩
  | .param _ => fun _ _ h => nomatch h
  | .constant _ => fun _ _ h => nomatch h
  | .variable _ => fun _ _ h => nomatch h
  | .lambda _ _ => fun _ _ h => nomatch h
  | .construct _ _ => fun _ _ h => nomatch h

/-- The fields of the filters of predicates are read by expressions over rows of the type. -/
theorem reads_of_ofLambdas {typeName : String} {type : TypeDecl} (htype : m.typeNamed typeName = .ok type)
    {ps : List Lambda} {fs : List Filter} (h : ofLambdas m typeName ps = .ok fs) :
    ∀ c ∈ clausesOf fs, ∃ parameter, Scope.Reads m ⟨parameter, type⟩ c.field := by
  induction ps generalizing fs with
  | nil =>
    cases h
    exact fun c hc => absurd hc List.not_mem_nil
  | cons p ps ih =>
    obtain ⟨first, hfirst, h⟩ := Except.bind_eq_ok.mp h
    obtain ⟨rest, hrest, h⟩ := Except.bind_eq_ok.mp h
    cases h
    obtain ⟨scope, hscope, hfirst⟩ := Except.bind_eq_ok.mp hfirst
    obtain ⟨f, hf, hfirst⟩ := Except.bind_eq_ok.mp hfirst
    cases hfirst
    obtain ⟨type', htype', hscope⟩ := Except.bind_eq_ok.mp hscope
    cases hscope
    cases htype.symm.trans htype'
    intro c hc
    rw [clausesOf_append, clausesOf_conjuncts] at hc
    rcases List.mem_append.mp hc with hc | hc
    · exact ⟨p.parameter, reads_of_ofExpr p.body false f hf c hc⟩
    · exact ih hrest c hc

end Filter

/-- A first clause for one identity compares its field with the identity that is looked up, unless a
property of the rows holds variants under the name of the identity. -/
theorem Template.spelledAlike_of_declared {bindings : Bindings} {typeName key : String}
    {type : TypeDecl} (htype : m.typeNamed typeName = .ok type)
    (hdeclared : ∀ p ∈ type.properties, p.storedName = documentIdPath → p.declared.enumName? = none)
    {ps : List Lambda} {fs : List Filter} (h : Filter.ofLambdas m typeName ps = .ok fs) :
    SpelledAlike m bindings key fs := by
  refine spelledAlike_of_no_enum fun c hc hid => ?_
  obtain ⟨parameter, e, hfield⟩ := Filter.reads_of_ofLambdas htype h c hc
  obtain ⟨names, -, hlocate⟩ := Except.bind_eq_ok.mp hfield
  exact FieldRef.enumName_of_locate hlocate hid fun _ => hdeclared

end DocumentQuery
