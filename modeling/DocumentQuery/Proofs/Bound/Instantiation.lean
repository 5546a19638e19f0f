import DocumentQuery.Bound.Binding
import DocumentQuery.Proofs.Store.Contents
import DocumentQuery.Proofs.Success

/-!
# Parameters as placeholders

A parameter stands for the value it is bound to. Templates can be instantiated: every operand that is a
parameter with a value becomes a constant of this value, in the target, the filters, the counts and the
inclusions at every depth (`Template.instantiate`). What is left binds without any parameters to the query
that the template binds to with them, and fails if the template does (`Template.bind_placeholders`).

Which operand a value came from is only looked at to word a refusal, so operands may be exchanged in every
step of binding that succeeds. Beyond that, binding looks at nothing but the values of the operands that
occur in the template (`Template.bind_congr`), and so at no parameter that does not occur in it.

A template with the values put in is refused whenever the template is, though not always in the same words: a
refusal may name the parameter, and afterwards there is none. This is why the first statement is an
equivalence about results, and why only the second, about parameters that do not occur, is an equation between
whole outcomes.

## Main definitions

* `Template.instantiate` — a template with the values of the parameters put in
* `Template.operands`, `Template.parameters` — the operands of a template, and the parameters among them
-/

namespace DocumentQuery

/-! ## Instances and operands -/

namespace Operand

/-- An operand with the value of a parameter put in. A parameter that no binding gives a value stays a
parameter, so that binding the instance fails as binding the operand does. -/
def instantiate (bindings : Bindings) : Operand → Operand
  | .constant value => .constant value
  | .parameter name =>
    match bindings.lookup name with
    | some value => .constant value
    | none => .parameter name

/-- The parameter an operand is, if it is one. -/
def parameters : Operand → List String
  | .constant _ => []
  | .parameter name => [name]

end Operand

/-- A clause with the values of parameters put in. -/
def Clause.instantiate (bindings : Bindings) (c : Clause) : Clause :=
  { c with value := c.value.instantiate bindings }

namespace Filter

mutual

/-- A filter with the values of parameters put in. -/
def instantiate (bindings : Bindings) : Filter → Filter
  | .clause c => .clause (c.instantiate bindings)
  | .or members => .or (instantiateAll bindings members)
  | .and members => .and (instantiateAll bindings members)

/-- Filters with the values of parameters put in. -/
def instantiateAll (bindings : Bindings) : List Filter → List Filter
  | [] => []
  | f :: fs => instantiate bindings f :: instantiateAll bindings fs

end

/-- The operands of filters from left to right. Every clause has one, however deep it is nested, and nothing
else in a filter has any. -/
def operandsOf (fs : List Filter) : List Operand :=
  (clausesOf fs).map Clause.value

end Filter

namespace Inclusion

mutual

/-- A navigation to load with the values of parameters put in. -/
def instantiate (bindings : Bindings) : Inclusion → Inclusion
  | ⟨navigation, filters, orderBy, limit, skip, nested⟩ =>
    ⟨navigation, Filter.instantiateAll bindings filters, orderBy,
      limit.map (·.instantiate bindings), skip.map (·.instantiate bindings),
      instantiateAll bindings nested⟩

/-- Navigations to load with the values of parameters put in. -/
def instantiateAll (bindings : Bindings) : List Inclusion → List Inclusion
  | [] => []
  | i :: is => instantiate bindings i :: instantiateAll bindings is

end

mutual

/-- The operands of a navigation to load and of those below it. -/
def operands : Inclusion → List Operand
  | ⟨_, filters, _, limit, skip, nested⟩ =>
    Filter.operandsOf filters ++ limit.toList ++ skip.toList ++ operandsOf nested

/-- The operands of navigations to load and of those below them. -/
def operandsOf : List Inclusion → List Operand
  | [] => []
  | i :: is => operands i ++ operandsOf is

end

end Inclusion

/-- A target with the values of parameters put in. -/
def Target.instantiate (bindings : Bindings) : Target → Target
  | .collection => .collection
  | .document id => .document (id.instantiate bindings)

/-- The operand of a target. -/
def Target.operands : Target → List Operand
  | .collection => []
  | .document id => [id]

namespace Template

/-- A template with the values of parameters put in. -/
def instantiate (bindings : Bindings) (t : Template) : Template :=
  { t with
    target := t.target.instantiate bindings
    filters := Filter.instantiateAll bindings t.filters
    limit := t.limit.map (·.instantiate bindings)
    limitToLast := t.limitToLast.map (·.instantiate bindings)
    skip := t.skip.map (·.instantiate bindings)
    includes := Inclusion.instantiateAll bindings t.includes }

/-- The operands of a template: those of its target, its filters and the navigations it loads, and the counts
of its pages. Projections, orderings and aggregations have none. -/
def operands (t : Template) : List Operand :=
  t.target.operands ++ Filter.operandsOf t.filters ++ Inclusion.operandsOf t.includes ++
    t.limit.toList ++ t.limitToLast.toList ++ t.skip.toList

/-- The parameters that occur in a template. -/
def parameters (t : Template) : List String :=
  t.operands.flatMap Operand.parameters

end Template

variable {m : Model} {b b' : Bindings}

/-! ## Exchanging operands -/

namespace Operand

variable {o o' : Operand} {value result : Json}

/-- An operand keeps its value, and stays without one, when the parameters are put in. This is all that has
to be known of operands: everything else follows from it through the steps of binding. -/
theorem bind_instantiate (b : Bindings) (o : Operand) :
    (o.instantiate b).bind [] = o.bind b := by
  cases o with
  | constant value => rfl
  | parameter name =>
    simp only [instantiate, bind]
    cases b.lookup name <;> rfl

theorem identity_eq_ok (o o' : Operand) {id : String} :
    o.identity value = .ok id ↔ o'.identity value = .ok id := by
  cases value <;> simp [identity, refuse]

theorem identities_eq_ok (o o' : Operand) :
    o.identities value = .ok result ↔ o'.identities value = .ok result := by
  cases value <;> simp only [identities, Except.bind_eq_ok, Except.map_eq_ok,
    Except.mapM_eq_ok_iff, identity_eq_ok o o']

theorem variant_eq_ok (o o' : Operand) {enum : EnumDecl} {enumName : String} :
    o.variant enum enumName value = .ok result ↔ o'.variant enum enumName value = .ok result := by
  cases hvalue : value.toSigned? with
  | none => simp only [variant, hvalue]
  | some n => cases hname : enum.nameOf? n <;> simp [variant, hvalue, hname, refuse]

theorem variants_eq_ok (o o' : Operand) {enum : EnumDecl} {enumName : String} :
    o.variants enum enumName value = .ok result ↔ o'.variants enum enumName value = .ok result := by
  cases value <;> simp only [variants, Except.map_eq_ok, Except.mapM_eq_ok_iff, variant_eq_ok o o']

theorem toVariants_eq_ok (o o' : Operand) {field : FieldRef} :
    o.toVariants m field value = .ok result ↔ o'.toVariants m field value = .ok result := by
  simp only [toVariants]
  cases field.enumName with
  | none => rfl
  | some name => simp only [Except.bind_eq_ok, variants_eq_ok o o']

theorem toIdentities_eq_ok (o o' : Operand) {field : FieldRef} :
    o.toIdentities field value = .ok result ↔ o'.toIdentities field value = .ok result := by
  simp only [toIdentities]
  split
  · exact identities_eq_ok o o'
  · rfl

/-- A count is bound to the same number when the parameters are put in. Only the word in a refusal differs,
which says the parameter or the constant. -/
theorem bindCount_instantiate (purpose : String) (o : Operand) {n : Nat} :
    (o.instantiate b).bindCount [] purpose = .ok n ↔ o.bindCount b purpose = .ok n := by
  simp only [bindCount, bind_instantiate, Except.bind_eq_ok]
  refine exists_congr fun value => and_congr_right fun _ => ?_
  cases value.toCount? <;> simp [pure, Except.pure, throw, throwThe, MonadExceptOf.throw]

theorem bindCount?_instantiate (purpose : String) (o : Option Operand) {n : Option Nat} :
    bindCount? [] purpose (o.map (·.instantiate b)) = .ok n ↔ bindCount? b purpose o = .ok n := by
  cases o with
  | none => rfl
  | some o => simp only [Option.map_some, bindCount?, Except.map_eq_ok, bindCount_instantiate]

end Operand

/-! ## Binding instances -/

namespace Clause

theorem checkList_instantiate {c : Clause} {value : Json} {u : Unit} :
    (c.instantiate b).checkList value = .ok u ↔ c.checkList value = .ok u := by
  unfold checkList
  by_cases hlist : (c.operator.takesList && !value.isArray) = true
  · rw [if_pos (show ((c.instantiate b).operator.takesList && _) = true from hlist), if_pos hlist]
    simp only [Operand.refuse, reduceCtorEq]
  · rw [if_neg (show ¬((c.instantiate b).operator.takesList && _) = true from hlist), if_neg hlist]

theorem bind_instantiate (c : Clause) {comparison : Comparison} :
    (c.instantiate b).bind m [] = .ok comparison ↔ c.bind m b = .ok comparison := by
  have hchecks (value : Json) : (c.instantiate b).checkNull value = c.checkNull value := rfl
  simp only [bind, Except.bind_eq_ok, checkList_instantiate, hchecks]
  simp only [instantiate, Operand.bind_instantiate,
    Operand.toVariants_eq_ok (c.value.instantiate b) c.value,
    Operand.toIdentities_eq_ok (c.value.instantiate b) c.value]

end Clause

namespace Filter

mutual

theorem bind_instantiate (f : Filter) {condition : Condition} :
    (f.instantiate b).bind m [] = .ok condition ↔ f.bind m b = .ok condition := by
  cases f with
  | clause c => simp only [instantiate, bind, Except.bind_eq_ok, Clause.bind_instantiate]
  | or members => simp only [instantiate, bind, Except.bind_eq_ok, bindEach_instantiateAll members]
  | and members => simp only [instantiate, bind, Except.bind_eq_ok, bindEach_instantiateAll members]

theorem bindEach_instantiateAll (fs : List Filter) {conditions : List Condition} :
    bindEach m [] (instantiateAll b fs) = .ok conditions ↔ bindEach m b fs = .ok conditions := by
  cases fs with
  | nil => rfl
  | cons f fs =>
    simp only [instantiateAll, bindEach, Except.bind_eq_ok, bind_instantiate f,
      bindEach_instantiateAll fs]

end

theorem bindAll_instantiateAll (fs : List Filter) {conditions : List Condition} :
    bindAll m [] (instantiateAll b fs) = .ok conditions ↔ bindAll m b fs = .ok conditions := by
  simp only [bindAll, Except.bind_eq_ok, bindEach_instantiateAll]

end Filter

namespace Inclusion

mutual

theorem bind_instantiate (i : Inclusion) (typeName : String) {loading : Loading} :
    (i.instantiate b).bind m [] typeName = .ok loading ↔ i.bind m b typeName = .ok loading := by
  obtain ⟨navigation, filters, orderBy, limit, skip, nested⟩ := i
  simp only [instantiate, bind, Except.bind_eq_ok, bindAll_instantiateAll nested,
    Filter.bindAll_instantiateAll, Operand.bindCount?_instantiate]

theorem bindAll_instantiateAll (is : List Inclusion) (typeName : String) {loadings : List Loading} :
    bindAll m [] typeName (instantiateAll b is) = .ok loadings ↔
      bindAll m b typeName is = .ok loadings := by
  cases is with
  | nil => rfl
  | cons i is =>
    simp only [instantiateAll, bindAll, Except.bind_eq_ok, bind_instantiate i,
      bindAll_instantiateAll is]

end

end Inclusion

/-! ## Equal values of the operands -/

theorem Operand.bindCount?_congr {purpose : String} {o : Option Operand}
    (h : ∀ operand ∈ o.toList, operand.bind b = operand.bind b') :
    bindCount? b purpose o = bindCount? b' purpose o := by
  cases o with
  | none => rfl
  | some o => simp only [bindCount?, bindCount, h o (List.mem_singleton_self o)]

namespace Filter

mutual

theorem bind_congr (f : Filter) (h : ∀ c ∈ f.clauses, c.value.bind b = c.value.bind b') :
    f.bind m b = f.bind m b' := by
  cases f with
  | clause c => simp only [bind, Clause.bind, h c (List.mem_singleton_self c)]
  | or members => simp only [bind, bindEach_congr members h]
  | and members => simp only [bind, bindEach_congr members h]

theorem bindEach_congr (fs : List Filter) (h : ∀ c ∈ clausesOf fs, c.value.bind b = c.value.bind b') :
    bindEach m b fs = bindEach m b' fs := by
  cases fs with
  | nil => rfl
  | cons f fs =>
    rw [bindEach, bindEach, bind_congr f fun c hc => h c (List.mem_append_left _ hc),
      bindEach_congr fs fun c hc => h c (List.mem_append_right _ hc)]

end

theorem bindAll_congr {fs : List Filter} (h : ∀ o ∈ operandsOf fs, o.bind b = o.bind b') :
    bindAll m b fs = bindAll m b' fs := by
  simp only [bindAll, bindEach_congr fs fun c hc => h c.value (List.mem_map_of_mem hc)]

end Filter

namespace Inclusion

mutual

theorem bind_congr (i : Inclusion) (h : ∀ o ∈ i.operands, o.bind b = o.bind b') (typeName : String) :
    i.bind m b typeName = i.bind m b' typeName := by
  obtain ⟨navigation, filters, orderBy, limit, skip, nested⟩ := i
  simp only [operands, List.forall_mem_append] at h
  obtain ⟨⟨⟨hfilters, hlimit⟩, hskip⟩, hnested⟩ := h
  simp only [bind, Filter.bindAll_congr hfilters, Operand.bindCount?_congr hlimit,
    Operand.bindCount?_congr hskip, bindAll_congr nested hnested]

theorem bindAll_congr (is : List Inclusion) (h : ∀ o ∈ operandsOf is, o.bind b = o.bind b')
    (typeName : String) : bindAll m b typeName is = bindAll m b' typeName is := by
  cases is with
  | nil => rfl
  | cons i is =>
    obtain ⟨hi, his⟩ := List.forall_mem_append.mp h
    simp only [bindAll, bind_congr i hi, bindAll_congr is his]

end

end Inclusion

namespace Template

/-- Binding looks at the values of the operands only. This is an equation between outcomes: if the operands
have the same values, or fail in the same way, a refusal is the same refusal too. -/
theorem bind_congr {t : Template} (h : ∀ o ∈ t.operands, o.bind b = o.bind b') :
    t.bind m b = t.bind m b' := by
  simp only [operands, List.forall_mem_append] at h
  obtain ⟨⟨⟨⟨⟨htarget, hfilters⟩, hincludes⟩, hlimit⟩, hlast⟩, hskip⟩ := h
  have haccess : t.bindAccess m b = t.bindAccess m b' := by
    simp only [bindAccess]
    cases hid : t.target with
    | collection => simp only [Filter.bindAll_congr hfilters]
    | document id => simp only [htarget id (by simp [hid, Target.operands])]
  simp only [bind, haccess, Inclusion.bindAll_congr _ hincludes, Operand.bindCount?_congr hlimit,
    Operand.bindCount?_congr hlast, Operand.bindCount?_congr hskip]

theorem bindAccess_instantiate (t : Template) {access : Access} :
    (t.instantiate b).bindAccess m [] = .ok access ↔ t.bindAccess m b = .ok access := by
  cases htarget : t.target with
  | collection =>
    simp only [bindAccess, instantiate, htarget, Target.instantiate, Except.bind_eq_ok,
      Filter.bindAll_instantiateAll]
  | document id =>
    simp only [bindAccess, instantiate, htarget, Target.instantiate, Except.bind_eq_ok,
      Operand.bind_instantiate, Operand.identity_eq_ok (id.instantiate b) id]

/-- Parameters are placeholders for constants. With their values put in, a template binds without parameters
to the query it binds to with them, and to none if there is none. Parameters that do not occur in a template
make no difference to what it binds to or why it fails.

Nothing is assumed of the model, the bindings or the template: parameters without a value, constants that are
no counts and filters at any depth are all covered. -/
theorem bind_placeholders (m : Model) (b : Bindings) (t : Template) :
    (∀ q, (t.instantiate b).bind m [] = .ok q ↔ t.bind m b = .ok q) ∧
    ∀ b' : Bindings, (∀ name ∈ t.parameters, b'.lookup name = b.lookup name) →
      t.bind m b' = t.bind m b := by
  constructor
  · intro q
    simp only [bind, Except.bind_eq_ok, bindAccess_instantiate]
    simp only [instantiate, Inclusion.bindAll_instantiateAll, Operand.bindCount?_instantiate]
  · refine fun b' h => bind_congr fun o ho => ?_
    cases o with
    | constant value => rfl
    | parameter name =>
      have hname := h name (List.mem_flatMap.mpr ⟨_, ho, List.mem_singleton_self name⟩)
      simp only [Operand.bind, hname]

/-- The first notes, as many as a parameter says. -/
def firstNotes : Template :=
  { all "notes" "Note" "Id" with limit := some (.parameter "count") }

/-- The query for the first two notes. -/
def firstTwoNotes : BoundQuery :=
  { BoundQuery.notes with limit := some 2 }

/-- With two for the count, the first notes are the query for two notes; putting the count in gives this query
and no other, and a parameter that does not occur makes no difference. -/
theorem bind_placeholders_firstNotes :
    firstNotes.bind .empty [("count", .num (.int 2))] = .ok firstTwoNotes ∧
    (∀ q, (firstNotes.instantiate [("count", .num (.int 2))]).bind .empty [] = .ok q ↔ q = firstTwoNotes) ∧
    firstNotes.bind .empty [("count", .num (.int 2)), ("tag", .null)] = .ok firstTwoNotes := by
  obtain ⟨hput, hagree⟩ := bind_placeholders .empty [("count", .num (.int 2))] firstNotes
  have hbind : firstNotes.bind .empty [("count", .num (.int 2))] = .ok firstTwoNotes := rfl
  refine ⟨hbind, fun q => ?_, ?_⟩
  · rw [hput, hbind]
    exact ⟨fun h => (Except.ok.inj h).symm, fun h => congrArg Except.ok h.symm⟩
  · rw [← hbind]
    refine hagree _ fun name hname => ?_
    obtain rfl : name = "count" := List.mem_singleton.mp hname
    rfl

end Template

end DocumentQuery
