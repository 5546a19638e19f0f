import DocumentQuery.Proofs.Lists
import DocumentQuery.Proofs.Predicate.Meaning

/-!
# From predicates to filters

A predicate is compiled to a filter that holds of the same documents (`Filter.ofExpr_holds`), for a
predicate and for its negation at once, because a negation is compiled by compiling what it negates the
other way around.

Negation is pushed through a filter down to its clauses. The clauses of a filter and of its negation
correspond one to one (`Filter.negate_clauses`), which carries what is known of the ones to the others:
that they can be bound, backwards from the filter that is used in the end, and that they suit a document,
forwards from the tests of the predicate.

`Filter.Means` is the invariant of the induction on a predicate: the filter says what the expression or its
negation says, and its clauses suit the document. The second half is what the negation of the filter needs, so
that a negation further out can be pushed through what was compiled already.
-/

namespace DocumentQuery

variable {m : Model} {bindings : Bindings} {d : Document}

/-! ## Clauses and their opposites -/

namespace Clause

/-- Two clauses with opposite comparisons of one field with one operand. Of a document that suits them exactly
one holds. -/
structure Opposite (c c' : Clause) : Prop where
  field : c'.field = c.field
  value : c'.value = c.value
  operator : c.operator.negated? = some c'.operator

namespace Opposite

variable {c c' : Clause}

theorem bound (h : Opposite c c') : c'.bound m bindings = c.bound m bindings := by
  rw [Clause.bound, Clause.bound, h.value, h.field]

/-- A clause can be bound if its opposite can. -/
theorem binds (h : Opposite c c') (hb : c'.Binds m bindings) : c.Binds m bindings := by
  obtain ⟨value, v, hvalue, hnull, hlist, hbound⟩ := binds_iff.mp hb
  rw [h.value] at hvalue
  rw [h.bound] at hbound
  -- opposite comparisons are both equalities or neither is, so null passes for both or for neither
  have hnull' : c.checkNull value = .ok () := by
    unfold checkNull at hnull ⊢
    split at hnull
    next hn => rw [if_pos hn]
    next hn =>
      rw [if_neg hn]
      split at hnull
      next heq =>
        rw [if_pos ((FilterOp.isEquality_negated h.operator).mp heq)]
        rw [h.field] at hnull
        exact hnull
      · exact nomatch hnull
  have hlist' : c.checkList value = .ok () := by
    unfold checkList at hlist ⊢
    rw [FilterOp.takesList_negated h.operator] at hlist
    split at hlist
    · exact nomatch hlist
    next hn => rw [if_neg hn]
  exact binds_iff.mpr ⟨value, v, hvalue, hnull', hlist', hbound⟩

/-- What suits a clause suits its opposite. -/
theorem suits (h : Opposite c c') (hs : c.Suits m bindings d) : c'.Suits m bindings d where
  present := by rw [h.field]; exact hs.present
  null := by rw [h.bound, h.field]; exact hs.null
  kind := by rw [FilterOp.isRange_negated h.operator, h.bound, h.field]; exact hs.kind

/-- Of a document that suits a clause, its opposite holds exactly if it does not. -/
theorem holds (h : Opposite c c') (hs : c.Suits m bindings d) (hb : c.Binds m bindings) :
    c'.holds m bindings d = !c.holds m bindings d := by
  obtain ⟨comparison, hbind⟩ := hb
  obtain ⟨hbound, -, -, hne⟩ := bind_eq_ok hbind
  obtain ⟨stored, hstored⟩ := Option.isSome_iff_exists.mp hs.present
  have hbound' : c.value.bindFor m bindings c.field = .ok comparison.value := hbound
  simp only [Clause.holds, FieldRef.compares, h.field, h.value, hstored, hbound']
  exact FilterOp.holds_negated h.operator (fun hn => hs.null _ hbound (hn ▸ hstored)) hne
    fun hop => hs.kind hop _ _ hstored hbound

end Opposite

end Clause

/-! ## Lists of filters -/

namespace Filter

/-- Two lists of filters hold if all filters of both do. -/
theorem allHold_append (fs gs : List Filter) :
    allHold m bindings d (fs ++ gs) = (allHold m bindings d fs && allHold m bindings d gs) := by
  induction fs with
  | nil => simp [allHold]
  | cons f fs ih => simp [allHold, ih, Bool.and_assoc]

theorem allHold_members (f : Filter) : allHold m bindings d f.members = f.holds m bindings d := by
  cases f <;> simp [members, allHold, holds]

/-- Joining the members of conjunctions keeps the meaning. -/
theorem allHold_flatMap_members (fs : List Filter) :
    allHold m bindings d (fs.flatMap members) = allHold m bindings d fs := by
  induction fs with
  | nil => rfl
  | cons f fs ih => rw [List.flatMap_cons, allHold_append, allHold_members, ih, allHold]

/-- The clauses of two lists of filters are those of the first and those of the second. -/
theorem clausesOf_append (fs gs : List Filter) :
    clausesOf (fs ++ gs) = clausesOf fs ++ clausesOf gs := by
  induction fs with
  | nil => rfl
  | cons f fs ih => simp [clausesOf, ih]

theorem clausesOf_members (f : Filter) : clausesOf f.members = f.clauses := by
  cases f <;> simp [members, clausesOf, clauses]

theorem clausesOf_flatMap_members (fs : List Filter) :
    clausesOf (fs.flatMap members) = clausesOf fs := by
  induction fs with
  | nil => rfl
  | cons f fs ih => rw [List.flatMap_cons, clausesOf_append, clausesOf_members, ih, clausesOf]

mutual

/-- The conjuncts of a filter hold together exactly if it holds. -/
theorem allHold_conjuncts (f : Filter) :
    allHold m bindings d f.conjuncts = f.holds m bindings d := by
  cases f with
  | clause c => simp [conjuncts, allHold]
  | or members => simp [conjuncts, allHold]
  | and members => exact allHold_conjunctsOf members

theorem allHold_conjunctsOf (fs : List Filter) :
    allHold m bindings d (conjunctsOf fs) = allHold m bindings d fs := by
  cases fs with
  | nil => rfl
  | cons f fs => rw [conjunctsOf, allHold_append, allHold_conjuncts f, allHold_conjunctsOf fs, allHold]

end

mutual

/-- Taking a filter apart into conjuncts keeps its clauses. -/
theorem clausesOf_conjuncts (f : Filter) : clausesOf f.conjuncts = f.clauses := by
  cases f with
  | clause c => simp [conjuncts, clausesOf]
  | or members => simp [conjuncts, clausesOf]
  | and members => exact clausesOf_conjunctsOf members

theorem clausesOf_conjunctsOf (fs : List Filter) : clausesOf (conjunctsOf fs) = clausesOf fs := by
  cases fs with
  | nil => rfl
  | cons f fs =>
    rw [conjunctsOf, clausesOf_append, clausesOf_conjuncts f, clausesOf_conjunctsOf fs, clausesOf]

end

/-! ## Negation -/

mutual

/-- A filter and its negation have opposite clauses, one by one. -/
theorem negate_clauses (f : Filter) {f' : Filter} (h : f.negate = .ok f') :
    List.Forall₂ Clause.Opposite f.clauses f'.clauses := by
  cases f with
  | clause c =>
    simp only [negate] at h
    cases hop : c.operator.negated? with
    | none =>
      rw [hop] at h
      exact nomatch h
    | some op =>
      rw [hop] at h
      cases h
      exact .cons ⟨rfl, rfl, hop⟩ .nil
  | or members =>
    obtain ⟨negated, hnegated, h⟩ := Except.bind_eq_ok.mp h
    cases h
    rw [clauses, clauses, clausesOf_flatMap_members]
    exact negateAll_clauses members hnegated
  | and members =>
    obtain ⟨negated, hnegated, h⟩ := Except.bind_eq_ok.mp h
    cases h
    exact negateAll_clauses members hnegated

theorem negateAll_clauses (fs : List Filter) {fs' : List Filter} (h : negateAll fs = .ok fs') :
    List.Forall₂ Clause.Opposite (clausesOf fs) (clausesOf fs') := by
  cases fs with
  | nil =>
    cases h
    exact .nil
  | cons f fs =>
    obtain ⟨first, hfirst, h⟩ := Except.bind_eq_ok.mp h
    obtain ⟨rest, hrest, h⟩ := Except.bind_eq_ok.mp h
    cases h
    exact List.rel_append (negate_clauses f hfirst) (negateAll_clauses fs hrest)

end

/-- Documents that suit every clause of a filter that can be bound. Of such a document each clause either
holds, or its opposite does. -/
def Decided (m : Model) (bindings : Bindings) (d : Document) (cs : List Clause) : Prop :=
  ∀ c ∈ cs, c.Suits m bindings d ∧ c.Binds m bindings

theorem Decided.append {cs cs' : List Clause} (h : Decided m bindings d (cs ++ cs')) :
    Decided m bindings d cs ∧ Decided m bindings d cs' :=
  ⟨fun c hc => h c (List.mem_append_left _ hc), fun c hc => h c (List.mem_append_right _ hc)⟩

mutual

/-- The negation of a filter holds exactly if the filter does not. -/
theorem negate_holds (f : Filter) {f' : Filter} (h : f.negate = .ok f')
    (hd : Decided m bindings d f.clauses) : f'.holds m bindings d = !f.holds m bindings d := by
  cases f with
  | clause c =>
    simp only [negate] at h
    cases hop : c.operator.negated? with
    | none =>
      rw [hop] at h
      exact nomatch h
    | some op =>
      rw [hop] at h
      cases h
      obtain ⟨hsuits, hbinds⟩ := hd c (List.mem_singleton_self c)
      have hopposite : Clause.Opposite c { c with operator := op } := ⟨rfl, rfl, hop⟩
      simpa only [holds] using hopposite.holds hsuits hbinds
  | or members =>
    obtain ⟨negated, hnegated, h⟩ := Except.bind_eq_ok.mp h
    cases h
    rw [holds, holds, allHold_flatMap_members]
    exact (negateAll_holds members hnegated hd).1
  | and members =>
    obtain ⟨negated, hnegated, h⟩ := Except.bind_eq_ok.mp h
    cases h
    rw [holds, holds]
    exact (negateAll_holds members hnegated hd).2

/-- All negations of filters hold exactly if no filter does, and one of them if not all filters do. -/
theorem negateAll_holds (fs : List Filter) {fs' : List Filter} (h : negateAll fs = .ok fs')
    (hd : Decided m bindings d (clausesOf fs)) :
    allHold m bindings d fs' = !anyHolds m bindings d fs ∧
      anyHolds m bindings d fs' = !allHold m bindings d fs := by
  cases fs with
  | nil =>
    cases h
    exact ⟨rfl, rfl⟩
  | cons f fs =>
    obtain ⟨first, hfirst, h⟩ := Except.bind_eq_ok.mp h
    obtain ⟨rest, hrest, h⟩ := Except.bind_eq_ok.mp h
    cases h
    obtain ⟨hdf, hdfs⟩ := hd.append
    obtain ⟨hall, hany⟩ := negateAll_holds fs hrest hdfs
    simp only [allHold, anyHolds, negate_holds f hfirst hdf, hall, hany, Bool.not_or, Bool.not_and]
    exact ⟨trivial, trivial⟩

end

/-- A filter that is negated on demand: it can be bound if the result can, and it suits and means what the
result suits and means. -/
theorem negateIf_spec {negated : Bool} {f f' : Filter} (h : f.negateIf negated = .ok f')
    (hbinds : ∀ c ∈ f'.clauses, c.Binds m bindings) :
    (∀ c ∈ f.clauses, c.Binds m bindings) ∧
      ((∀ c ∈ f.clauses, c.Suits m bindings d) →
        f'.holds m bindings d = (negated ^^ f.holds m bindings d) ∧
          ∀ c ∈ f'.clauses, c.Suits m bindings d) := by
  cases negated with
  | false =>
    cases h
    exact ⟨hbinds, fun hsuits => ⟨(Bool.false_xor _).symm, hsuits⟩⟩
  | true =>
    have h : f.negate = .ok f' := h
    have hclauses := negate_clauses f h
    -- what can be bound is known of the result, what suits is known of the filter
    have hbinds' : ∀ c ∈ f.clauses, c.Binds m bindings := by
      intro c hc
      obtain ⟨c', hc', hopposite⟩ := exists_of_forall₂ hclauses hc
      exact hopposite.binds (hbinds c' hc')
    refine ⟨hbinds', fun hsuits => ⟨?_, fun c' hc' => ?_⟩⟩
    · rw [negate_holds f h fun c hc => ⟨hsuits c hc, hbinds' c hc⟩, Bool.true_xor]
    · obtain ⟨c, hc, hopposite⟩ := exists_of_forall₂ hclauses.flip hc'
      exact hopposite.suits (hsuits c hc)

end Filter

/-! ## Atomic tests -/

namespace Test

/-- A truth value that a clause can be bound to is the bound value. -/
theorem bindFor_bool {field : FieldRef} {b : Bool}
    (h : Clause.Binds m bindings ⟨field, .equalTo, .constant (.bool b)⟩) :
    (Operand.constant (.bool b)).bindFor m bindings field = .ok (.bool b) := by
  obtain ⟨comparison, hbind⟩ := h
  have hbound : (Operand.constant (.bool b)).bindFor m bindings field = .ok comparison.value :=
    (Clause.bind_eq_ok hbind).1
  obtain ⟨value, hvalue, hidentity⟩ := Except.bind_eq_ok.mp hbound
  obtain ⟨raw, hraw, hvariant⟩ := Except.bind_eq_ok.mp hvalue
  cases hraw
  have hbool : value = .bool b := by
    unfold Operand.toVariants at hvariant
    split at hvariant
    · obtain ⟨enum, -, hvariant⟩ := Except.bind_eq_ok.mp hvariant
      cases hvariant
      rfl
    · cases hvariant
      rfl
  subst hbool
  rw [hbound]
  unfold Operand.toIdentities at hidentity
  split at hidentity
  · exact nomatch hidentity
  · exact hidentity.symm

/-- A boolean member is compared with a truth value. -/
theorem clause_holds_of_flag {field : FieldRef} {value b : Bool}
    (hstored : d.field? field.path = some (.bool value))
    (h : Clause.Binds m bindings ⟨field, .equalTo, .constant (.bool b)⟩) :
    Clause.holds m bindings d ⟨field, .equalTo, .constant (.bool b)⟩ = (value == b) := by
  simp only [Clause.holds, FieldRef.compares, hstored, bindFor_bool h]
  rfl

/-- A test holds of a document that suits it exactly if its clause does. -/
theorem holds_clause {t : Test} (hs : t.Suits m bindings d) (hb : t.clause.Binds m bindings) :
    t.clause.holds m bindings d = t.holds m bindings d := by
  cases t with
  | compare field operator operand => rfl
  | reversed field operator operand =>
    have hswapped : operator.swapped.holds = operator.holdsReversed :=
      funext fun actual => funext fun expected => FilterOp.holds_swapped operator actual expected
    show field.compares m bindings d operand operator.swapped.holds = _
    rw [hswapped]
    rfl
  | flag field =>
    obtain ⟨value, hstored⟩ := hs.flag field rfl
    refine (clause_holds_of_flag hstored hb).trans ?_
    simp only [holds, hstored]
    cases value <;> rfl

end Test

namespace Filter

variable {scope : Scope} {f : Filter}

/-! Every atomic expression that is compiled to a clause is the test of that clause. -/

theorem ofComparison_eq_ok {op : FilterOp} {left right : Expr}
    (h : ofComparison m scope op left right = .ok f) :
    ∃ t, Test.ofComparison? m scope op left right = some t ∧ f = .clause t.clause := by
  unfold ofComparison at h
  unfold Test.ofComparison?
  cases hl : left.isField scope.parameter <;> cases hr : right.isField scope.parameter <;>
    simp only [hl, hr] at h ⊢
  case false.false => exact nomatch h
  case true.true => exact nomatch h
  all_goals
    obtain ⟨field, hfield, h⟩ := Except.bind_eq_ok.mp h
    obtain ⟨operand, hoperand, h⟩ := Except.bind_eq_ok.mp h
    obtain ⟨_, hread, h⟩ := Except.bind_eq_ok.mp h
    cases hread
    rw [hfield, hoperand]
    split at h
    · exact nomatch h
    · cases h
      exact ⟨_, rfl, rfl⟩

theorem ofContains_eq_ok {source item : Expr} (h : ofContains m scope source item = .ok f) :
    ∃ t, Test.ofContains? m scope source item = some t ∧ f = .clause t.clause := by
  unfold ofContains at h
  unfold Test.ofContains?
  split at h
  next hsource =>
    obtain ⟨field, hfield, h⟩ := Except.bind_eq_ok.mp h
    rw [if_pos hsource, hfield]
    split at h
    · exact nomatch h
    · obtain ⟨operand, hoperand, h⟩ := Except.bind_eq_ok.mp h
      cases h
      rw [hoperand]
      exact ⟨_, rfl, rfl⟩
  next hsource =>
    rw [if_neg hsource]
    split at h
    · obtain ⟨field, hfield, h⟩ := Except.bind_eq_ok.mp h
      obtain ⟨operand, hoperand, h⟩ := Except.bind_eq_ok.mp h
      cases h
      rw [hfield, hoperand]
      exact ⟨_, rfl, rfl⟩
    · exact nomatch h

theorem ofAny_eq_ok {source body : Expr} {parameter : String}
    (h : ofAny m scope source parameter body = .ok f) :
    ∃ t, Test.ofAny? m scope source parameter body = some t ∧ f = .clause t.clause := by
  unfold ofAny at h
  cases hsource : source.isField scope.parameter with
  | false =>
    simp only [hsource, Bool.not_false, if_true] at h
    cases h
  | true =>
    simp only [hsource, Bool.not_true, Bool.false_eq_true, if_false] at h
    obtain ⟨field, hfield, h⟩ := Except.bind_eq_ok.mp h
    split at h
    · cases h
    cases hlist : candidates? parameter body.unwrap with
    | none =>
      rw [hlist] at h
      cases h
    | some list =>
      rw [hlist] at h
      obtain ⟨operand, hoperand, h⟩ := Except.bind_eq_ok.mp h
      cases h
      refine ⟨.compare field .arrayContainsAny operand, ?_, rfl⟩
      rw [Test.ofAny?, hfield, hlist]
      show ((Operand.ofList list).toOption >>= fun operand =>
        some (Test.compare field .arrayContainsAny operand)) = _
      rw [hoperand]
      rfl

theorem ofCall_eq_ok {method : Method} {receiver : Option Expr} {args : List Expr}
    (h : ofCall m scope method receiver args = .ok f) :
    ∃ t, Test.ofExpr? m scope (.call method receiver args) = some t ∧ f = .clause t.clause := by
  unfold ofCall at h
  split at h
  · exact ofComparison_eq_ok h
  · exact ofComparison_eq_ok h
  · exact ofContains_eq_ok h
  · exact ofContains_eq_ok h
  · exact ofAny_eq_ok h
  · exact ofAny_eq_ok h
  · exact nomatch h

theorem ofFlag_eq_ok {negated : Bool} {e : Expr} (h : ofFlag m scope negated e = .ok f) :
    ∃ field, FieldRef.ofExpr m scope e = .ok field ∧
      f = .clause ⟨field, .equalTo, .constant (.bool !negated)⟩ := by
  obtain ⟨field, hfield, h⟩ := Except.bind_eq_ok.mp h
  split at h
  · cases h
    exact ⟨field, hfield, rfl⟩
  · exact nomatch h

/-! ## Predicates -/

/-- A test that is negated on demand. -/
theorem negateIf_test {negated : Bool} {t : Test} (h : (clause t.clause).negateIf negated = .ok f)
    (hs : t.Suits m bindings d) (hbinds : ∀ c ∈ f.clauses, c.Binds m bindings) :
    f.holds m bindings d = (negated ^^ t.holds m bindings d) ∧
      ∀ c ∈ f.clauses, c.Suits m bindings d := by
  obtain ⟨hbinds', hspec⟩ := negateIf_spec h hbinds
  have hclause : t.clause.Binds m bindings := hbinds' _ (List.mem_singleton_self _)
  obtain ⟨hholds, hsuits⟩ := hspec fun c hc => (List.mem_singleton.mp hc) ▸ hs.clause
  refine ⟨?_, hsuits⟩
  rw [hholds, ← Test.holds_clause hs hclause, holds]

/-- A boolean member on its own, or its negation. -/
theorem ofFlag_holds {negated : Bool} {field : FieldRef} (hs : (Test.flag field).Suits m bindings d)
    (hb : Clause.Binds m bindings ⟨field, .equalTo, .constant (.bool !negated)⟩) :
    Clause.holds m bindings d ⟨field, .equalTo, .constant (.bool !negated)⟩ =
        (negated ^^ (Test.flag field).holds m bindings d) ∧
      Clause.Suits m bindings d ⟨field, .equalTo, .constant (.bool !negated)⟩ := by
  obtain ⟨value, hstored⟩ := hs.flag field rfl
  refine ⟨?_, hs.clause.present, ?_, ?_⟩
  · rw [Test.clause_holds_of_flag hstored hb]
    simp only [Test.holds, hstored]
    cases negated <;> cases value <;> rfl
  · intro v _ hnull
    cases hstored.symm.trans hnull
  · intro hop
    cases hop

/-- An expression is atomic when its value is that of one test. -/
theorem atom_spec {e : Expr} {t : Test} (ht : Test.ofExpr? m scope e = some t)
    (hatoms : e.atoms = [e]) (heval : ∀ atom, e.eval atom = atom e)
    (hs : e.Suits m bindings scope d) :
    e.holds m bindings scope d = t.holds m bindings d ∧ t.Suits m bindings d := by
  refine ⟨?_, hs e (hatoms ▸ List.mem_singleton_self e) t ht⟩
  rw [Expr.holds, heval, Expr.atomHolds, ht]
  rfl

theorem suits_binary {op : BinaryOp} (hop : op.comparison? = none) {left right : Expr}
    (hs : (Expr.binary op left right).Suits m bindings scope d) :
    left.Suits m bindings scope d ∧ right.Suits m bindings scope d := by
  have hatoms : (Expr.binary op left right).atoms = left.atoms ++ right.atoms := by
    cases op <;> first | rfl | exact nomatch hop
  exact ⟨fun e he => hs e (hatoms ▸ List.mem_append_left _ he),
    fun e he => hs e (hatoms ▸ List.mem_append_right _ he)⟩

theorem clauses_join (op : BinaryOp) (l r : Filter) :
    (join op l r).clauses = l.clauses ++ r.clauses := by
  unfold join
  split
  · rw [clauses, clausesOf_append, clausesOf_members, clausesOf_members]
  · simp [clauses, clausesOf]

theorem join_holds {op : BinaryOp} (hop : op.comparison? = none) {left right : Expr} {l r : Filter}
    (hl : l.holds m bindings d = left.holds m bindings scope d)
    (hr : r.holds m bindings d = right.holds m bindings scope d) :
    (join op l r).holds m bindings d = (Expr.binary op left right).holds m bindings scope d := by
  cases op <;> cases hop
  case andAlso =>
    show allHold m bindings d (l.members ++ r.members) = _
    rw [allHold_append, allHold_members, allHold_members, hl, hr]
    rfl
  case orElse =>
    show (l.holds m bindings d || (r.holds m bindings d || false)) = _
    rw [Bool.or_false, hl, hr]
    rfl

/-- A filter says what an expression or its negation says of a document, and all its clauses can be tried on
that document. -/
def Means (m : Model) (bindings : Bindings) (scope : Scope) (d : Document) (e : Expr) (negated : Bool)
    (f : Filter) : Prop :=
  f.holds m bindings d = (negated ^^ e.holds m bindings scope d) ∧ ∀ c ∈ f.clauses, c.Suits m bindings d

theorem means_not {operand : Expr} {negated : Bool} (h : Means m bindings scope d operand (!negated) f) :
    Means m bindings scope d (.not operand) negated f := by
  refine ⟨?_, h.2⟩
  rw [h.1]
  show (!negated ^^ operand.holds m bindings scope d) = (negated ^^ !operand.holds m bindings scope d)
  rw [Bool.not_xor, Bool.xor_not]

/-- An atomic expression is translated to the clause of its test, which is negated on demand. -/
theorem means_atom {e : Expr} {t : Test} {negated : Bool} (ht : Test.ofExpr? m scope e = some t)
    (hatoms : e.atoms = [e]) (heval : ∀ atom, e.eval atom = atom e) (hs : e.Suits m bindings scope d)
    (h : (clause t.clause).negateIf negated = .ok f) (hb : ∀ c ∈ f.clauses, c.Binds m bindings) :
    Means m bindings scope d e negated f := by
  obtain ⟨hholds, hsuits⟩ := atom_spec ht hatoms heval hs
  rw [Means, hholds]
  exact negateIf_test h hsuits hb

theorem means_comparison {op : BinaryOp} {comparison : FilterOp} {left right : Expr} {g : Filter}
    {negated : Bool} (hop : op.comparison? = some comparison)
    (hg : ofComparison m scope comparison left right = .ok g) (h : g.negateIf negated = .ok f)
    (hs : (Expr.binary op left right).Suits m bindings scope d)
    (hb : ∀ c ∈ f.clauses, c.Binds m bindings) :
    Means m bindings scope d (.binary op left right) negated f := by
  obtain ⟨t, ht, rfl⟩ := ofComparison_eq_ok hg
  have htest : Test.ofExpr? m scope (.binary op left right) = some t := by
    rw [Test.ofExpr?, hop]
    exact ht
  have hatoms : (Expr.binary op left right).atoms = [.binary op left right] := by
    cases op <;> first | rfl | exact nomatch hop
  have heval (atom : Expr → Bool) :
      (Expr.binary op left right).eval atom = atom (.binary op left right) := by
    cases op <;> first | rfl | exact nomatch hop
  exact means_atom htest hatoms heval hs h hb

/-- The filters of both operands are joined. They can be bound because the result can. -/
theorem means_join {op : BinaryOp} {left right : Expr} {l r : Filter} {negated : Bool}
    (hop : op.comparison? = none)
    (hl : (∀ c ∈ l.clauses, c.Binds m bindings) → Means m bindings scope d left false l)
    (hr : (∀ c ∈ r.clauses, c.Binds m bindings) → Means m bindings scope d right false r)
    (h : (join op l r).negateIf negated = .ok f) (hb : ∀ c ∈ f.clauses, c.Binds m bindings) :
    Means m bindings scope d (.binary op left right) negated f := by
  obtain ⟨hbinds, hspec⟩ := negateIf_spec h hb
  rw [clauses_join] at hbinds hspec
  obtain ⟨hlholds, hlsuits⟩ := hl fun c hc => hbinds c (List.mem_append_left _ hc)
  obtain ⟨hrholds, hrsuits⟩ := hr fun c hc => hbinds c (List.mem_append_right _ hc)
  rw [Bool.false_xor] at hlholds hrholds
  rw [Means, ← join_holds hop hlholds hrholds]
  exact hspec fun c hc => (List.mem_append.mp hc).elim (hlsuits c) (hrsuits c)

theorem means_member {target : Expr} {name : String} {negated : Bool}
    (h : ofFlag m scope negated (.member target name) = .ok f)
    (hs : (Expr.member target name).Suits m bindings scope d)
    (hb : ∀ c ∈ f.clauses, c.Binds m bindings) :
    Means m bindings scope d (.member target name) negated f := by
  obtain ⟨field, hfield, rfl⟩ := ofFlag_eq_ok h
  have htest : Test.ofExpr? m scope (.member target name) = some (.flag field) := by
    rw [Test.ofExpr?, hfield]
    rfl
  obtain ⟨hholds, hsuits⟩ := atom_spec htest rfl (fun _ => rfl) hs
  obtain ⟨hflag, hclause⟩ := ofFlag_holds hsuits (hb _ (List.mem_singleton_self _))
  rw [Means, hholds]
  exact ⟨hflag, fun c hc => (List.mem_singleton.mp hc) ▸ hclause⟩

/-- The filter of a predicate, or of its negation, holds exactly if the predicate does, or does not.

Two hypotheses carry this. The filter can be bound, so no clause of it is refused when parameters are put in;
and the document suits the predicate, so that no atomic test meets a value it has no answer for. -/
theorem ofExpr_holds : (e : Expr) → (negated : Bool) → (f : Filter) →
    ofExpr m scope negated e = .ok f → e.Suits m bindings scope d →
    (∀ c ∈ f.clauses, c.Binds m bindings) → Means m bindings scope d e negated f
  | .convert operand => fun negated f h hs hb => ofExpr_holds operand negated f h hs hb
  | .not operand => fun negated f h hs hb => means_not (ofExpr_holds operand (!negated) f h hs hb)
  | .binary op left right => fun negated f h hs hb => by
    rw [ofExpr] at h
    cases hop : op.comparison? with
    | some comparison =>
      rw [hop] at h
      obtain ⟨g, hg, hnegate⟩ := Except.bind_eq_ok.mp h
      exact means_comparison hop hg hnegate hs hb
    | none =>
      rw [hop] at h
      obtain ⟨l, hl, h⟩ := Except.bind_eq_ok.mp h
      obtain ⟨r, hr, hnegate⟩ := Except.bind_eq_ok.mp h
      obtain ⟨hsl, hsr⟩ := suits_binary hop hs
      exact means_join hop (ofExpr_holds left false l hl hsl) (ofExpr_holds right false r hr hsr) hnegate hb
  | .call method receiver args => fun negated f h hs hb => by
    rw [ofExpr] at h
    obtain ⟨g, hg, hnegate⟩ := Except.bind_eq_ok.mp h
    obtain ⟨t, ht, rfl⟩ := ofCall_eq_ok hg
    exact means_atom ht rfl (fun _ => rfl) hs hnegate hb
  | .member target name => fun negated f h hs hb => by
    rw [ofExpr] at h
    exact means_member h hs hb
  | .param _ => fun _ _ h _ _ => nomatch h
  | .constant _ => fun _ _ h _ _ => nomatch h
  | .variable _ => fun _ _ h _ _ => nomatch h
  | .lambda _ _ => fun _ _ h _ _ => nomatch h
  | .construct _ _ => fun _ _ h _ _ => nomatch h

end Filter

end DocumentQuery
