import DocumentQuery.Compile.Pipeline
import DocumentQuery.Expression.Build
import DocumentQuery.Proofs.Predicate.Binding
import DocumentQuery.Proofs.Predicate.Translation
import DocumentQuery.Proofs.Store.Contents

/-!
# Filtering means what the predicates say

A pipeline of predicates is compiled to a template and bound to an access. The access is for a document
exactly if all predicates hold of it (`Pipeline.admits_iff`). It is accepted exactly if the clauses of the
filters can be bound (`Pipeline.exists_bound_iff`).

Between the filters of the predicates and the access stands `Template.addFilter`, which turns a first
clause for one identity into the target of the template, and the target into a clause again when another
filter follows. Either way the clause is written anew, with the key of the root entity as its field
(`Template.spelled`). This loses nothing when the field of the clause is the key, which has no enum. It
does lose the enum of an ordinary property that is stored under the name of the identity: its numbers are
then taken for identities and not for variants. `Template.SpelledAlike` excludes that, and when it fails,
a document is found of which not all predicates hold (`Pipeline.admits_of_not_spelledAlike`).

Two further conditions are on the document. It suits the predicates, so that the store has an answer for every
test in them, and its identity is a single segment, so that a lookup and a condition mean the same identity.
Both are conditions under which the question makes sense; the spelling is the one that is about the program.
-/

namespace DocumentQuery

variable {m : Model} {bindings : Bindings} {d : Document}

namespace Template

/-! ## Adding filters -/

/-- The filters as a template keeps them: a leading clause for one identity is written with the key. All
others are kept as they are, and so is a leading clause of any other kind. -/
def spelled (key : String) : List Filter → List Filter
  | .clause c :: rest =>
    (if c.isKeyEquality then .clause ⟨FieldRef.documentId key, .equalTo, c.value⟩ else .clause c) ::
      rest
  | filters => filters

/-- Filters that are added change how the rows are addressed and filtered, and nothing else. -/
theorem foldl_addFilter_eq (fs : List Filter) (t : Template) : ∃ target filters,
    fs.foldl addFilter t = { t with target := target, filters := filters } := by
  induction fs generalizing t with
  | nil => exact ⟨t.target, t.filters, rfl⟩
  | cons f fs ih =>
    have hfirst : ∃ target filters, t.addFilter f = { t with target := target, filters := filters } := by
      unfold addFilter
      cases f with
      | clause c => dsimp only; split <;> exact ⟨_, _, rfl⟩
      | or members => exact ⟨_, _, rfl⟩
      | and members => exact ⟨_, _, rfl⟩
    obtain ⟨_, _, hfirst⟩ := hfirst
    obtain ⟨target, filters, hrest⟩ := ih (t.addFilter f)
    exact ⟨target, filters, by rw [List.foldl_cons, hrest, hfirst]⟩

/-- Filters leave the entity type. -/
theorem foldl_addFilter_entityType (fs : List Filter) (t : Template) :
    (fs.foldl addFilter t).entityType = t.entityType := by
  obtain ⟨_, _, h⟩ := foldl_addFilter_eq fs t
  rw [h]

/-- Filters leave the key. -/
theorem foldl_addFilter_keyProperty (fs : List Filter) (t : Template) :
    (fs.foldl addFilter t).keyProperty = t.keyProperty := by
  obtain ⟨_, _, h⟩ := foldl_addFilter_eq fs t
  rw [h]

/-- Templates whose target is the only filter, if it is an identity. Every template that is built by adding
filters is one. -/
def LookupAlone (t : Template) : Prop :=
  t.isLookup = true → t.filters = []

/-- A further filter is added as it is. -/
theorem addFilter_of_ne_nil {t : Template} (h : t.explicitFilters ≠ []) (f : Filter) :
    (t.addFilter f).explicitFilters = t.explicitFilters ++ [f] ∧ (t.addFilter f).LookupAlone := by
  have hempty : t.explicitFilters.isEmpty = false := List.isEmpty_eq_false_iff.mpr h
  unfold addFilter
  cases f with
  | clause c =>
    simp only [hempty, Bool.and_false, Bool.false_eq_true, if_false]
    exact ⟨rfl, fun h => nomatch h⟩
  | or members => exact ⟨rfl, fun h => nomatch h⟩
  | and members => exact ⟨rfl, fun h => nomatch h⟩

/-- The first filter is written with the key if it asks for one identity. -/
theorem addFilter_of_nil {t : Template} (h : t.explicitFilters = []) (f : Filter) :
    (t.addFilter f).explicitFilters = spelled t.keyProperty [f] ∧ (t.addFilter f).LookupAlone := by
  unfold addFilter
  cases f with
  | clause c =>
    simp only [h, List.isEmpty_nil, Bool.and_true, spelled]
    split
    · exact ⟨rfl, fun _ => rfl⟩
    · exact ⟨rfl, fun h => nomatch h⟩
  | or members =>
    simp only [h]
    exact ⟨rfl, fun h => nomatch h⟩
  | and members =>
    simp only [h]
    exact ⟨rfl, fun h => nomatch h⟩

/-- Further filters are added as they are, one after the other. -/
theorem foldl_addFilter_of_ne_nil (fs : List Filter) {t : Template} (h : t.explicitFilters ≠ [])
    (ht : t.LookupAlone) :
    (fs.foldl addFilter t).explicitFilters = t.explicitFilters ++ fs ∧
      (fs.foldl addFilter t).LookupAlone := by
  induction fs generalizing t with
  | nil => exact ⟨(List.append_nil _).symm, ht⟩
  | cons f fs ih =>
    obtain ⟨hfirst, halone⟩ := addFilter_of_ne_nil h f
    have hne : (t.addFilter f).explicitFilters ≠ [] := by
      rw [hfirst]
      exact List.append_ne_nil_of_right_ne_nil _ (List.cons_ne_nil _ _)
    obtain ⟨hrest, halone⟩ := ih hne halone
    refine ⟨?_, halone⟩
    rw [List.foldl_cons, hrest, hfirst, List.append_assoc, List.singleton_append]

/-- A template keeps all filters that are added, the first one with the key. -/
theorem foldl_addFilter_of_nil (fs : List Filter) {t : Template} (h : t.explicitFilters = [])
    (ht : t.LookupAlone) :
    (fs.foldl addFilter t).explicitFilters = spelled t.keyProperty fs ∧
      (fs.foldl addFilter t).LookupAlone := by
  cases fs with
  | nil => exact ⟨h, ht⟩
  | cons f fs =>
    obtain ⟨hfirst, halone⟩ := addFilter_of_nil h f
    have hne : (t.addFilter f).explicitFilters ≠ [] := by
      rw [hfirst]
      cases f <;> exact List.cons_ne_nil _ _
    obtain ⟨hrest, halone⟩ := foldl_addFilter_of_ne_nil fs hne halone
    refine ⟨?_, halone⟩
    rw [List.foldl_cons, hrest, hfirst]
    cases f <;> rfl

end Template

/-! ## Clauses for one identity -/

namespace Clause

/-- A clause for one identity can be bound if it can when it is written with the key, and has a value. -/
theorem binds_of_spelled {key : String} {c : Clause} (hop : c.operator = .equalTo)
    (hbinds : Binds m bindings ⟨FieldRef.documentId key, .equalTo, c.value⟩) {v : Json}
    (hbound : c.bound m bindings = .ok v) : c.Binds m bindings := by
  obtain ⟨value, -, hvalue, hnull, -⟩ := binds_iff.mp hbinds
  have hne : value ≠ .null := by
    rintro rfl
    cases hnull
  exact equality_binds hop hvalue hne hbound

/-- A clause for one identity is bound to the value of the operand. -/
theorem holds_of_isKeyEquality {c : Clause} (hkey : c.isKeyEquality = true) {v : Json}
    (hbound : c.bound m bindings = .ok v) :
    c.holds m bindings d = (Json.str d.id).equates v := by
  obtain ⟨hfield, hop⟩ := Bool.and_eq_true_iff.mp hkey
  have hop : c.operator = .equalTo := eq_of_beq hop
  have hbound : c.value.bindFor m bindings c.field = .ok v := hbound
  simp only [holds, FieldRef.compares, d.field?_documentId hfield, hbound, hop]
  rfl

/-- The clause of an identity, written with the key. -/
theorem isKeyEquality_documentId (key : String) (operand : Operand) :
    isKeyEquality ⟨FieldRef.documentId key, .equalTo, operand⟩ = true := by
  simp [isKeyEquality]

end Clause

/-- A single value that is not null is compared with the identity as the identity it stands for. -/
theorem Operand.identities_of_single {operand : Operand} {value : Json} (hsingle : value.isArray = false)
    (hne : value ≠ .null) : operand.identities value = (operand.identity value).map Json.str := by
  cases value with
  | null => exact absurd rfl hne
  | arr items => exact nomatch hsingle
  | _ => rfl

namespace Template

/-! ## Binding the target -/

/-- The clause that a lookup stands for can be bound, and holds of the document with the identity. -/
theorem lookup_clause {key id : String} {operand : Operand} {value : Json}
    (hvalue : operand.bind bindings = .ok value) (hid : operand.identity value = .ok id) :
    Clause.Binds m bindings ⟨FieldRef.documentId key, .equalTo, operand⟩ ∧
      Clause.holds m bindings d ⟨FieldRef.documentId key, .equalTo, operand⟩ = (d.id == id) := by
  have hne : value ≠ .null := by
    rintro rfl
    cases hid
  have hids : operand.identities value = .ok (.str id) := by
    cases value <;> first | (cases hid; done) | exact congrArg (Except.map Json.str) hid
  have hbound : operand.bindFor m bindings (FieldRef.documentId key) = .ok (.str id) := by
    rw [Operand.bindFor, hvalue]
    exact hids
  refine ⟨Clause.equality_binds rfl hvalue hne hbound, ?_⟩
  rw [Clause.holds_of_isKeyEquality (Clause.isKeyEquality_documentId key operand) hbound]
  rfl

/-- An identity that is looked up is the only filter. -/
theorem LookupAlone.explicitFilters_of_document {t : Template} (ht : t.LookupAlone) {operand : Operand}
    (h : t.target = .document operand) :
    t.explicitFilters = [.clause ⟨FieldRef.documentId t.keyProperty, .equalTo, operand⟩] := by
  have hnil : t.filters = [] := ht (by rw [isLookup, h])
  rw [explicitFilters, h, hnil]
  rfl

/-- The access of a template is for the documents of which its filters hold, and all clauses of the
filters can be bound. -/
theorem bindAccess_covers {t : Template} (ht : t.LookupAlone) {access : Access}
    (h : t.bindAccess m bindings = .ok access) :
    (∀ d, access.covers d = Filter.allHold m bindings d t.explicitFilters) ∧
      ∀ c ∈ Filter.clausesOf t.explicitFilters, c.Binds m bindings := by
  unfold bindAccess at h
  cases htarget : t.target with
  | document operand =>
    rw [htarget] at h
    obtain ⟨value, hvalue, h⟩ := Except.bind_eq_ok.mp h
    obtain ⟨key, hkey, h⟩ := Except.bind_eq_ok.mp h
    cases h
    -- an identity that is looked up is the only filter, so nothing is lost by the lookup
    have hclause (d : Document) : Clause.Binds m bindings
          ⟨FieldRef.documentId t.keyProperty, .equalTo, operand⟩ ∧
        Clause.holds m bindings d ⟨FieldRef.documentId t.keyProperty, .equalTo, operand⟩ =
          (d.id == key) :=
      lookup_clause hvalue hkey
    simp only [ht.explicitFilters_of_document htarget, Filter.allHold, Filter.holds, (hclause _).2,
      Bool.and_true]
    exact ⟨fun d => rfl, fun c hc => (List.mem_singleton.mp hc) ▸ (hclause ⟨"", .null⟩).1⟩
  | collection =>
    rw [htarget] at h
    rw [explicitFilters, htarget]
    obtain ⟨conditions, hconditions, h⟩ := Except.bind_eq_ok.mp h
    cases h
    have haccepts (d : Document) := Filter.bindAll_accepts (d := d) hconditions
    exact ⟨fun d => (Access.ofConditions_covers d conditions).trans (haccepts d).1,
      (haccepts ⟨"", .null⟩).2⟩

/-- A template has an access if the clauses of its filters can be bound, and the identity it looks up is no
list. -/
theorem exists_bindAccess {t : Template}
    (hsingle : ∀ operand value, t.target = .document operand → operand.bind bindings = .ok value →
      value.isArray = false)
    (h : ∀ c ∈ Filter.clausesOf t.explicitFilters, c.Binds m bindings) :
    ∃ access, t.bindAccess m bindings = .ok access := by
  unfold explicitFilters at h
  unfold bindAccess
  cases htarget : t.target with
  | document operand =>
    simp only [htarget, Filter.clausesOf_append, List.mem_append] at h
    obtain ⟨value, v, hvalue, hnull, -, hbound⟩ :=
      Clause.binds_iff.mp (h _ (.inr (List.mem_singleton_self _)))
    have hbound : operand.identities value = .ok v := by
      rw [Clause.bound, Operand.bindFor, hvalue] at hbound
      exact hbound
    have hne : value ≠ .null := by
      rintro rfl
      cases hnull
    rw [Operand.identities_of_single (hsingle operand value htarget hvalue) hne] at hbound
    obtain ⟨id, hid, -⟩ := Except.map_eq_ok.mp hbound
    exact ⟨.document id, Except.bind_eq_ok.mpr ⟨value, hvalue, Except.bind_eq_ok.mpr ⟨id, hid, rfl⟩⟩⟩
  | collection =>
    rw [htarget] at h
    obtain ⟨conditions, hconditions, -⟩ := Filter.exists_bindAll h
    exact ⟨_, Except.bind_eq_ok.mpr ⟨conditions, hconditions, rfl⟩⟩

/-- Of the documents that a collection stores under single segments, those of which the filters hold are
admitted. -/
theorem bindAccess_admits {t : Template} (ht : t.LookupAlone) {access : Access}
    (h : t.bindAccess m bindings = .ok access) (collection : String) {id : String} (data : Json)
    (hid : '/' ∉ id.toList) :
    access.admits collection id data =
        Filter.allHold m bindings ⟨Document.pathOf collection id, data⟩ t.explicitFilters ∧
      ∀ c ∈ Filter.clausesOf t.explicitFilters, c.Binds m bindings := by
  obtain ⟨hcovers, hbinds⟩ := bindAccess_covers ht h
  exact ⟨(access.admits_eq_covers collection data hid).trans (hcovers _), hbinds⟩

/-- Filters that are written as one clause for the key are one clause for the identity. -/
theorem spelled_eq_lookup {key key' : String} {operand : Operand} {fs : List Filter}
    (h : spelled key fs = [.clause ⟨FieldRef.documentId key', .equalTo, operand⟩]) :
    ∃ c, fs = [.clause c] ∧ c.isKeyEquality = true ∧ c.value = operand := by
  rcases fs with _ | ⟨c | members | members, rest⟩
  case nil | cons.or | cons.and => exact nomatch h
  case cons.clause =>
    obtain ⟨hc, rfl⟩ := List.cons.inj h
    cases hkey : c.isKeyEquality with
    | true =>
      rw [if_pos hkey] at hc
      cases hc
      exact ⟨c, rfl, hkey, rfl⟩
    | false =>
      rw [if_neg (by simp [hkey])] at hc
      cases hc
      exact absurd (Clause.isKeyEquality_documentId key' operand) (by simp [hkey])

/-! ## Identities written anew -/

/-- A first clause for one identity compares its own field with the same value as the key. Nothing is asked of
clauses that come later or that are no equality, since these are never written anew. -/
def SpelledAlike (m : Model) (bindings : Bindings) (key : String) : List Filter → Prop
  | .clause c :: _ => c.isKeyEquality = true → ∀ v,
      c.value.bindFor m bindings (FieldRef.documentId key) = .ok v → c.bound m bindings = .ok v
  | _ => True

/-- Only a field of enum variants can make a difference. -/
theorem spelledAlike_of_no_enum {key : String} {fs : List Filter}
    (h : ∀ c ∈ Filter.clausesOf fs, c.field.isDocumentId = true → c.field.enumName = none) :
    SpelledAlike m bindings key fs := by
  rcases fs with _ | ⟨c | members | members, rest⟩
  case nil | cons.or | cons.and => trivial
  case cons.clause =>
    intro hkey v hv
    obtain ⟨hfield, -⟩ := Bool.and_eq_true_iff.mp hkey
    have henum : c.field.enumName = none := h c List.mem_cons_self hfield
    have hvariants : c.value.toVariants m c.field =
        c.value.toVariants m (FieldRef.documentId key) := by
      funext value
      rw [Operand.toVariants, henum]
      rfl
    have hids : c.value.toIdentities c.field =
        c.value.toIdentities (FieldRef.documentId key) := by
      funext value
      rw [Operand.toIdentities, hfield]
      rfl
    rw [Clause.bound, Operand.bindFor, hvariants, hids]
    exact hv

/-- A clause for one identity says the same when it is written with the key. -/
theorem spelled_clause {key : String} {c : Clause} (hkey : c.isKeyEquality = true)
    (hbinds : Clause.Binds m bindings ⟨FieldRef.documentId key, .equalTo, c.value⟩)
    (halike : ∀ v, c.value.bindFor m bindings (FieldRef.documentId key) = .ok v →
      c.bound m bindings = .ok v) :
    c.Binds m bindings ∧
      Clause.holds m bindings d ⟨FieldRef.documentId key, .equalTo, c.value⟩ =
        c.holds m bindings d := by
  obtain ⟨-, hop⟩ := Bool.and_eq_true_iff.mp hkey
  obtain ⟨-, v, -, -, -, hv⟩ := Clause.binds_iff.mp hbinds
  have hbound : c.bound m bindings = .ok v := halike v hv
  refine ⟨Clause.binds_of_spelled (eq_of_beq hop) hbinds hbound, ?_⟩
  rw [Clause.holds_of_isKeyEquality (Clause.isKeyEquality_documentId key c.value) hv,
    Clause.holds_of_isKeyEquality hkey hbound]

/-- Filters say the same when a first clause for one identity is written with the key. -/
theorem spelled_holds {key : String} {fs : List Filter} (halike : SpelledAlike m bindings key fs)
    (hbinds : ∀ c ∈ Filter.clausesOf (spelled key fs), c.Binds m bindings) :
    Filter.allHold m bindings d (spelled key fs) = Filter.allHold m bindings d fs ∧
      ∀ c ∈ Filter.clausesOf fs, c.Binds m bindings := by
  rcases fs with _ | ⟨c | members | members, rest⟩
  case nil | cons.or | cons.and => exact ⟨rfl, hbinds⟩
  case cons.clause =>
    cases hkey : c.isKeyEquality with
    | false =>
      simp only [spelled, hkey] at hbinds ⊢
      exact ⟨rfl, hbinds⟩
    | true =>
      simp only [spelled, hkey, if_true] at hbinds ⊢
      obtain ⟨hfirst, hholds⟩ :=
        spelled_clause (d := d) hkey (hbinds _ List.mem_cons_self) (halike hkey)
      simp only [Filter.allHold, Filter.holds, hholds, true_and]
      intro c' hc'
      rcases List.mem_cons.mp hc' with rfl | hc'
      · exact hfirst
      · exact hbinds c' (List.mem_cons_of_mem _ hc')

end Template

/-! ## Predicates -/

namespace Lambda

/-- Whether a predicate over rows of a type holds of a document. -/
def holds (m : Model) (bindings : Bindings) (typeName : String) (d : Document) (l : Lambda) : Bool :=
  match l.scope m typeName with
  | .ok scope => l.body.holds m bindings scope d
  | .error _ => false

/-- Documents of which every test in a predicate either holds or does not. -/
def Suits (m : Model) (bindings : Bindings) (typeName : String) (d : Document) (l : Lambda) : Prop :=
  ∀ scope, l.scope m typeName = .ok scope → l.body.Suits m bindings scope d

instance (m : Model) (bindings : Bindings) (typeName : String) (d : Document) (l : Lambda) :
    Decidable (l.Suits m bindings typeName d) :=
  decidable_of_iff (∀ scope ∈ (l.scope m typeName).toOption, l.body.Suits m bindings scope d)
    ⟨fun h scope hscope => h scope (Except.mem_toOption.mpr hscope),
      fun h scope hscope => h scope (Except.mem_toOption.mp hscope)⟩

end Lambda

namespace Filter

/-- The conjuncts of predicates over rows of a type. -/
def ofLambdas (m : Model) (typeName : String) : List Lambda → Except QueryError (List Filter)
  | [] => .ok []
  | p :: ps => do
    let first ← ofLambda m typeName p
    let rest ← ofLambdas m typeName ps
    return first ++ rest

/-- The conjuncts of one predicate. -/
theorem ofLambdas_singleton {typeName : String} {p : Lambda} {fs : List Filter} :
    ofLambdas m typeName [p] = .ok fs ↔ ofLambda m typeName p = .ok fs := by
  simp [ofLambdas, Except.bind_eq_ok, pure, Except.pure]

/-- The conjuncts of a predicate hold exactly if the predicate does. -/
theorem ofLambda_holds {typeName : String} {p : Lambda} {fs : List Filter}
    (h : ofLambda m typeName p = .ok fs) (hs : p.Suits m bindings typeName d)
    (hb : ∀ c ∈ clausesOf fs, c.Binds m bindings) :
    allHold m bindings d fs = p.holds m bindings typeName d := by
  obtain ⟨scope, hscope, h⟩ := Except.bind_eq_ok.mp h
  obtain ⟨f, hf, h⟩ := Except.bind_eq_ok.mp h
  cases h
  rw [clausesOf_conjuncts] at hb
  obtain ⟨hholds, -⟩ := ofExpr_holds p.body false f hf (hs scope hscope) hb
  rw [allHold_conjuncts, hholds, Bool.false_xor, Lambda.holds, hscope]

/-- The conjuncts of predicates hold exactly if all predicates do. -/
theorem ofLambdas_holds {typeName : String} {ps : List Lambda} {fs : List Filter}
    (h : ofLambdas m typeName ps = .ok fs) (hs : ∀ p ∈ ps, p.Suits m bindings typeName d)
    (hb : ∀ c ∈ clausesOf fs, c.Binds m bindings) :
    allHold m bindings d fs = ps.all (·.holds m bindings typeName d) := by
  induction ps generalizing fs with
  | nil =>
    cases h
    rfl
  | cons p ps ih =>
    obtain ⟨first, hfirst, h⟩ := Except.bind_eq_ok.mp h
    obtain ⟨rest, hrest, h⟩ := Except.bind_eq_ok.mp h
    cases h
    rw [clausesOf_append] at hb
    rw [allHold_append, List.all_cons,
      ofLambda_holds hfirst (hs p List.mem_cons_self) fun c hc => hb c (List.mem_append_left _ hc),
      ih hrest (fun p' hp' => hs p' (List.mem_cons_of_mem _ hp'))
        fun c hc => hb c (List.mem_append_right _ hc)]

end Filter

/-! ## Pipelines of predicates -/

/-- An entity has a collection and a key. -/
theorem Model.exists_kind_of_entityNamed {name : String} {entity : TypeDecl}
    (h : m.entityNamed name = .ok entity) : ∃ collection key, entity.kind = .entity collection key := by
  obtain ⟨type, -, h⟩ := Except.bind_eq_ok.mp h
  split at h
  next hentity =>
    cases h
    unfold TypeDecl.isEntity at hentity
    split at hentity
    next collection key hkind => exact ⟨collection, key, hkind⟩
    · cases hentity
  · exact nomatch h

/-- A predicate adds its conjuncts while nothing but filters has come before. -/
theorem Progress.step_filter {p : Progress} (hstage : p.stage = .filtering) (predicate : Lambda) :
    p.step m (.filter predicate) = p.addPredicate m predicate := by
  have hrequire : p.require .ordered (.filter predicate) = .ok () := by
    rw [require, hstage]
    rfl
  rw [step, if_neg (by rw [hstage]; decide)]
  show (p.require .ordered (.filter predicate) >>= fun _ => p.addPredicate m predicate) = _
  rw [hrequire]
  rfl

/-- A pipeline that only filters adds the conjuncts of its predicates to the template. -/
theorem Progress.foldlM_filter (predicates : List Lambda) {p : Progress} (hstage : p.stage = .filtering) :
    (predicates.map Operator.filter).foldlM (Progress.step m) p =
      (Filter.ofLambdas m p.template.entityType predicates).map fun fs =>
        { p with template := fs.foldl Template.addFilter p.template } := by
  induction predicates generalizing p with
  | nil => rfl
  | cons predicate predicates ih =>
    rw [List.map_cons, List.foldlM_cons, step_filter hstage, addPredicate, Filter.ofLambdas]
    cases Filter.ofLambda m p.template.entityType predicate with
    | error e => rfl
    | ok first =>
      -- the predicate leaves the stage, so the next one is let in as well
      refine (ih (p := { p with template := first.foldl Template.addFilter p.template }) hstage).trans ?_
      rw [Template.foldl_addFilter_entityType]
      show _ = Except.map _ (Filter.ofLambdas m p.template.entityType predicates >>= fun rest =>
        .ok (first ++ rest))
      cases Filter.ofLambdas m p.template.entityType predicates with
      | error e => rfl
      | ok rest =>
        show Except.ok _ = Except.ok { p with template := (first ++ rest).foldl Template.addFilter p.template }
        rw [List.foldl_append]

namespace Template

/-- A pipeline that only filters has a template if its predicates have filters. -/
theorem compile_of_ofLambdas {root collection key : String} {entity : TypeDecl}
    {predicates : List Lambda} {fs : List Filter} (hroot : m.entityNamed root = .ok entity)
    (hkind : entity.kind = .entity collection key)
    (hfs : Filter.ofLambdas m entity.name predicates = .ok fs) :
    Pipeline.compile m ⟨root, predicates.map Operator.filter⟩ =
      .ok (fs.foldl addFilter (all collection entity.name key)) := by
  refine Except.bind_eq_ok.mpr ⟨entity, hroot, ?_⟩
  have hfs : Filter.ofLambdas m (all collection entity.name key).entityType predicates = .ok fs := hfs
  simp only [hkind, Progress.foldlM_filter, hfs]
  rfl

/-- The template of a pipeline that only filters has the filters of the predicates, the first of them
with the key. -/
theorem compile_filters {root : String} {predicates : List Lambda} {t : Template}
    (h : Pipeline.compile m ⟨root, predicates.map Operator.filter⟩ = .ok t) :
    ∃ fs, Filter.ofLambdas m t.entityType predicates = .ok fs ∧
      t.explicitFilters = spelled t.keyProperty fs ∧ t.LookupAlone := by
  obtain ⟨type, -, h⟩ := Except.bind_eq_ok.mp h
  split at h
  next collection key _ =>
    obtain ⟨done, hdone, h⟩ := Except.bind_eq_ok.mp h
    cases h
    rw [Progress.foldlM_filter predicates rfl] at hdone
    obtain ⟨fs, hfs, rfl⟩ := Except.map_eq_ok.mp hdone
    obtain ⟨hexplicit, halone⟩ :=
      foldl_addFilter_of_nil fs (t := all collection type.name key) rfl (fun _ => rfl)
    refine ⟨fs, ?_, ?_, halone⟩
    · rw [foldl_addFilter_entityType]
      exact hfs
    · rw [foldl_addFilter_keyProperty]
      exact hexplicit
  · exact nomatch h

/-- What a bound query has of its template: the parameters are replaced by values, and everything else is
kept. Each field says where one part of the query is from. -/
structure BoundTo (m : Model) (bindings : Bindings) (t : Template) (q : BoundQuery) : Prop where
  /-- The target and the filters, with values. -/
  access : t.bindAccess m bindings = .ok q.access
  /-- The navigations to load, with values. -/
  includes : Inclusion.bindAll m bindings t.entityType t.includes = .ok q.includes
  limit : Operand.bindCount? bindings "limit" t.limit = .ok q.limit
  limitToLast : Operand.bindCount? bindings "limit_to_last" t.limitToLast = .ok q.limitToLast
  skip : Operand.bindCount? bindings "skip" t.skip = .ok q.skip
  collection : q.collection = t.collection
  entityType : q.entityType = t.entityType
  keyProperty : q.keyProperty = t.keyProperty
  orderBy : q.orderBy = t.orderBy
  aggregation : q.aggregation = t.aggregation
  cardinality : q.cardinality = t.cardinality
  projection : q.projection = t.projection

/-- A query that a template is bound to has all its parts from the template. -/
theorem bind_eq_ok {t : Template} {q : BoundQuery} (h : t.bind m bindings = .ok q) :
    t.BoundTo m bindings q := by
  obtain ⟨access, haccess, h⟩ := Except.bind_eq_ok.mp h
  obtain ⟨includes, hincludes, h⟩ := Except.bind_eq_ok.mp h
  obtain ⟨limit, hlimit, h⟩ := Except.bind_eq_ok.mp h
  obtain ⟨limitToLast, hlast, h⟩ := Except.bind_eq_ok.mp h
  obtain ⟨skip, hskip, h⟩ := Except.bind_eq_ok.mp h
  cases h
  exact ⟨haccess, hincludes, hlimit, hlast, hskip, rfl, rfl, rfl, rfl, rfl, rfl, rfl⟩

end Template

namespace Pipeline

open Template (SpelledAlike spelled)

variable {root : String} {predicates : List Lambda} {q : BoundQuery} {id : String} {data : Json}

/-- Filtering predicates are accepted exactly if the clauses of their filters can be bound, the first of them
written with the key. The query is then for the documents of which these filters hold.

The value of a single clause for the identity must not be a list. A list is refused as an identity, with other
words than a clause would be. -/
theorem exists_bound_iff {collection key : String} {entity : TypeDecl} {fs : List Filter}
    (hroot : m.entityNamed root = .ok entity) (hkind : entity.kind = .entity collection key)
    (hfs : Filter.ofLambdas m entity.name predicates = .ok fs)
    (hsingle : ∀ c, fs = [.clause c] → c.isKeyEquality = true → ∀ value,
      c.value.bind bindings = .ok value → value.isArray = false) :
    ((∃ q, (compile m ⟨root, predicates.map Operator.filter⟩ >>= Template.bind m bindings) = .ok q) ↔
      ∀ c ∈ Filter.clausesOf (spelled key fs), c.Binds m bindings) ∧
    ∀ q, (compile m ⟨root, predicates.map Operator.filter⟩ >>= Template.bind m bindings) = .ok q →
      ∀ d, q.access.covers d = Filter.allHold m bindings d (spelled key fs) := by
  rw [Template.compile_of_ofLambdas hroot hkind hfs]
  obtain ⟨hexplicit, halone⟩ := Template.foldl_addFilter_of_nil fs
    (t := Template.all collection entity.name key) rfl (fun _ => rfl)
  have hexplicit : (fs.foldl Template.addFilter (.all collection entity.name key)).explicitFilters =
      spelled key fs := hexplicit
  constructor
  · rw [← hexplicit]
    constructor
    · rintro ⟨q, hq⟩
      exact (Template.bindAccess_covers halone (Template.bind_eq_ok hq).access).2
    · intro hbinds
      obtain ⟨target, filters, htemplate⟩ :=
        Template.foldl_addFilter_eq fs (Template.all collection entity.name key)
      obtain ⟨access, haccess⟩ := Template.exists_bindAccess (fun operand value htarget hvalue => by
        -- only an equality that stands alone is looked up
        obtain ⟨c, hc, hkey, rfl⟩ := Template.spelled_eq_lookup
          (hexplicit.symm.trans (halone.explicitFilters_of_document htarget))
        exact hsingle c hc hkey value hvalue) hbinds
      rw [htemplate] at haccess ⊢
      exact ⟨_, Except.bind_eq_ok.mpr ⟨_, rfl, Except.bind_eq_ok.mpr ⟨access, haccess, rfl⟩⟩⟩
  · intro q hq d
    rw [← hexplicit]
    exact (Template.bindAccess_covers halone (Template.bind_eq_ok hq).access).1 d

/-- The query of filtering predicates is for the documents of which their filters hold, the first of them
written with the key. -/
theorem admits_eq_spelled
    (h : (compile m ⟨root, predicates.map Operator.filter⟩ >>= Template.bind m bindings) = .ok q)
    (hid : '/' ∉ id.toList) (data : Json) :
    ∃ fs, Filter.ofLambdas m q.entityType predicates = .ok fs ∧
      q.access.admits q.collection id data = Filter.allHold m bindings
        ⟨Document.pathOf q.collection id, data⟩ (spelled q.keyProperty fs) ∧
      ∀ c ∈ Filter.clausesOf (spelled q.keyProperty fs), c.Binds m bindings := by
  obtain ⟨t, hcompile, hbind⟩ := Except.bind_eq_ok.mp h
  have hbound := Template.bind_eq_ok hbind
  obtain ⟨fs, hfs, hexplicit, halone⟩ := Template.compile_filters hcompile
  rw [← hbound.entityType] at hfs
  rw [← hbound.keyProperty] at hexplicit
  refine ⟨fs, hfs, ?_⟩
  rw [← hexplicit]
  exact Template.bindAccess_admits halone hbound.access q.collection data hid

/-- The query of filtering predicates is for exactly those documents of its collection of which all predicates
hold, if the first clause compares with the identity that is looked up.

That condition, `SpelledAlike`, carries the statement: without it a document is admitted of which a predicate
does not hold (`admits_of_not_spelledAlike`). It holds unless a property keeps enum variants under the name of
the identity. -/
theorem admits_iff
    (h : (compile m ⟨root, predicates.map Operator.filter⟩ >>= Template.bind m bindings) = .ok q)
    (hid : '/' ∉ id.toList)
    (hsuits : ∀ p ∈ predicates,
      p.Suits m bindings q.entityType ⟨Document.pathOf q.collection id, data⟩)
    (halike : ∀ fs, Filter.ofLambdas m q.entityType predicates = .ok fs →
      SpelledAlike m bindings q.keyProperty fs) :
    q.access.admits q.collection id data = true ↔ ∀ p ∈ predicates,
      p.holds m bindings q.entityType ⟨Document.pathOf q.collection id, data⟩ = true := by
  obtain ⟨fs, hfs, hadmits, hbinds⟩ := admits_eq_spelled h hid data
  obtain ⟨hspelled, hbinds⟩ := Template.spelled_holds (halike fs hfs) hbinds
  rw [hadmits, hspelled, Filter.ofLambdas_holds hfs hsuits hbinds, List.all_eq_true]

/-- The note `a`, if it neither ranks below 1 nor is tagged `y`. -/
def rankedNote : List Lambda :=
  [⟨"n", .equalTo (.member (.param "n") "Id") (.str "a")⟩,
    ⟨"n", .not (.binary .orElse
      (.binary .greaterThan (.constant (.int 1)) (.member (.param "n") "Rank"))
      (.equalTo (.member (.param "n") "Tag") (.str "y")))⟩]

/-- The query of `rankedNote`: both predicates are conditions, the second one with the negation pushed
inward. -/
def rankedNoteQuery : BoundQuery :=
  { BoundQuery.notes with
    access := .collection
      [.compare ⟨FieldRef.documentId "Id", .equalTo, .str "a"⟩,
        .compare ⟨⟨"rank", "Rank", .scalar .int, false, none⟩, .greaterThanOrEqualTo, .int 1⟩,
        .compare ⟨⟨"tag", "Tag", .scalar .string, false, none⟩, .notEqualTo, .str "y"⟩] }

/-- Two predicates, one of them negated, admit the note they hold of. -/
theorem admits_rankedNote :
    rankedNoteQuery.access.admits "notes" "a" (.obj [("rank", .int 1), ("tag", .str "x")]) = true := by
  have hcompile : (compile Model.notes ⟨"Note", rankedNote.map Operator.filter⟩ >>=
      Template.bind Model.notes []) = .ok rankedNoteQuery := rfl
  refine (admits_iff hcompile (by decide) (by decide) fun fs hfs => ?_).mpr (by decide)
  cases hfs
  exact Template.spelledAlike_of_no_enum (by decide)

/-- A model whose items keep their kind under the name of the identity. -/
def itemModel : Model :=
  (Model.empty.withEnum ⟨"Kind", [⟨"Draft", 0⟩, ⟨"Active", 1⟩]⟩).withType
    ⟨"Item", .entity "items" "Id",
      [.named "Id" (.scalar .string),
        (Property.named "Kind" (.scalar (.enum "Kind"))).inField documentIdPath], [], []⟩

/-- Items of the kind that is numbered 1. -/
def isActive : Lambda :=
  ⟨"i", .equalTo (.member (.param "i") "Kind") (.int 1)⟩

/-- The query of `isActive`. -/
def activeQuery : BoundQuery :=
  { BoundQuery.notes with collection := "items", entityType := "Item", access := .document "1" }

/-- The number of a variant is looked up as it is: the query is for the item `1`, which is not of the
kind, and not for the item `Active`, which is. -/
theorem admits_numbered_variant :
    (compile itemModel ⟨"Item", [isActive].map Operator.filter⟩ >>= Template.bind itemModel []) =
        .ok activeQuery ∧
      (isActive.Suits itemModel [] "Item" ⟨Document.pathOf "items" "1", .obj []⟩ ∧
        activeQuery.access.admits "items" "1" (.obj []) = true ∧
        isActive.holds itemModel [] "Item" ⟨Document.pathOf "items" "1", .obj []⟩ = false) ∧
      isActive.Suits itemModel [] "Item" ⟨Document.pathOf "items" "Active", .obj []⟩ ∧
        activeQuery.access.admits "items" "Active" (.obj []) = false ∧
        isActive.holds itemModel [] "Item" ⟨Document.pathOf "items" "Active", .obj []⟩ = true :=
  ⟨rfl, by decide, by decide⟩

/-- When the first clause compares with another value than the identity that is looked up, the query is
for the document with the identity if it meets the other filters, though not all predicates hold of it. -/
theorem admits_of_not_spelledAlike
    (h : (compile m ⟨root, predicates.map Operator.filter⟩ >>= Template.bind m bindings) = .ok q)
    (hid : '/' ∉ id.toList) {c : Clause} {rest : List Filter}
    (hfs : Filter.ofLambdas m q.entityType predicates = .ok (.clause c :: rest))
    (hkey : c.isKeyEquality = true)
    (hlookup : c.value.bindFor m bindings (FieldRef.documentId q.keyProperty) = .ok (.str id))
    {value : Json} (hbound : c.bound m bindings = .ok value) (hne : value ≠ .str id)
    (hsuits : ∀ p ∈ predicates,
      p.Suits m bindings q.entityType ⟨Document.pathOf q.collection id, data⟩)
    (hrest : Filter.allHold m bindings ⟨Document.pathOf q.collection id, data⟩ rest = true) :
    q.access.admits q.collection id data = true ∧ ∃ p ∈ predicates,
      p.holds m bindings q.entityType ⟨Document.pathOf q.collection id, data⟩ = false := by
  obtain ⟨fs, hfs', hadmits, hbinds⟩ := admits_eq_spelled h hid data
  cases hfs.symm.trans hfs'
  simp only [spelled, hkey, if_true] at hadmits hbinds
  -- The document has the identity that is looked up, and not the bound value.
  have hidentity := Document.id_pathOf q.collection data hid
  have hspelled : Clause.holds m bindings ⟨Document.pathOf q.collection id, data⟩
      ⟨FieldRef.documentId q.keyProperty, .equalTo, c.value⟩ = true := by
    rw [Clause.holds_of_isKeyEquality (Clause.isKeyEquality_documentId _ c.value) hlookup, hidentity]
    exact beq_self_eq_true id
  have hclause : c.holds m bindings ⟨Document.pathOf q.collection id, data⟩ = false := by
    rw [Clause.holds_of_isKeyEquality hkey hbound, hidentity]
    exact Json.equates_str_of_ne hne
  obtain ⟨-, hop⟩ := Bool.and_eq_true_iff.mp hkey
  have hbinds' : ∀ c' ∈ Filter.clausesOf (.clause c :: rest), c'.Binds m bindings := by
    intro c' hc'
    rcases List.mem_cons.mp hc' with rfl | hc'
    · exact Clause.binds_of_spelled (eq_of_beq hop) (hbinds _ List.mem_cons_self) hbound
    · exact hbinds c' (List.mem_cons_of_mem _ hc')
  have hnone : (predicates.all fun p =>
      p.holds m bindings q.entityType ⟨Document.pathOf q.collection id, data⟩) = false := by
    rw [← Filter.ofLambdas_holds hfs hsuits hbinds', Filter.allHold, Filter.holds, hclause,
      Bool.false_and]
  refine ⟨?_, by simpa using hnone⟩
  rw [hadmits, Filter.allHold, Filter.holds, hspelled, hrest, Bool.true_and]

end Pipeline

end DocumentQuery
