import DocumentQuery.Proofs.Compile.Root
import DocumentQuery.Proofs.Compile.Rows
import DocumentQuery.Proofs.Plan.Counting
import DocumentQuery.Proofs.Run.Sending

/-!
# Pipelines that count

A pipeline that filters, orders, pages and loads may end in a count, or in the question whether there is
anything. It is compiled to the same template, with a reduction, and the reduction says what the documents
say that the template fetches without it (`Engine.execute_counted`).

A page and a tail are never combined by such a pipeline (`Progress.Open`): paging is refused after a tail,
and a tail after paging.

The count of a pipeline is a signed word and the length of a list is a number without a bound, so the one
condition that is left on the store is that a collection has no more documents than such a word can count. How
the count is made is not part of the statement: by the store where the query is plain, and by the client where
it is emulated or looks a document up.
-/

namespace DocumentQuery

/-! ## Pipelines that leave documents -/

/-- Whether an operator leaves a sequence of documents: it neither makes values of them nor ends the
pipeline. -/
def Operator.leavesDocuments : Operator → Bool
  | .select _ => false
  | op => !op.ends

theorem Operator.ends_of_leavesDocuments {op : Operator} (h : op.leavesDocuments = true) :
    op.ends = false := by
  cases op <;> first | rfl | exact nomatch h

namespace Progress

variable {m : Model} {p p' start : Progress} {operators : List Operator}

/-- Progress of a pipeline that may still end in a reduction. It pages or keeps a tail, but not both, and what
has not paged yet has no counts. -/
structure Open (p : Progress) : Prop where
  stage : p.stage.within .paged = true
  unpaged : p.stage.within .ordered = true → p.Unpaged
  paging : p.template.limitToLast = none ∨ p.template.skip = none ∧ p.template.limit = none

theorem Step.open {op : Operator} (h : Step m p op p') (hop : op.leavesDocuments = true) (hp : p.Open) :
    p'.Open := by
  obtain ⟨hstage, hpaging⟩ : p'.stage.within .paged = true ∧
      (p'.template.limitToLast = none ∨ p'.template.skip = none ∧ p'.template.limit = none) := by
    cases h with
    | filter _ _ =>
      obtain ⟨_, _, heq⟩ := p.restrict_eq _
      rw [heq]
      exact ⟨hp.stage, hp.paging⟩
    | orderBy _ _ => exact ⟨rfl, hp.paging⟩
    | thenBy _ _ _ | loads _ _ => exact ⟨hp.stage, hp.paging⟩
    | takeLast hstage _ _ => exact ⟨rfl, .inr ⟨(hp.unpaged hstage).skip, (hp.unpaged hstage).limit⟩⟩
    | skip _ _ h =>
      obtain ⟨_, _, rfl⟩ := skip_eq h
      exact ⟨rfl, .inl (skip_spec h).1⟩
    | take _ _ h =>
      obtain ⟨_, rfl⟩ := take_eq h
      exact ⟨rfl, .inl (take_spec h).1⟩
    | select _ _ | pick _ _ => exact nomatch hop
    | reduce hreduces _ _ =>
      have hends := Operator.ends_of_reduction? hreduces
      exact nomatch (Operator.ends_of_leavesDocuments hop).symm.trans hends
  exact ⟨hstage, h.unpaged hp.unpaged, hpaging⟩

theorem open_all (collection entityType keyProperty : String) :
    Open ⟨Template.all collection entityType keyProperty, .filtering, none⟩ :=
  ⟨rfl, fun _ => ⟨rfl, rfl, rfl⟩, .inl rfl⟩

theorem open_of_run (h : operators.foldlM (step m) start = .ok p)
    (hleaves : ∀ op ∈ operators, op.leavesDocuments = true) (hstart : start.Open) : p.Open := by
  induction operators using List.reverseRecOn generalizing p with
  | nil =>
    cases h
    exact hstart
  | append_singleton operators op ih =>
    obtain ⟨before, hrun, hstep⟩ := run_append_singleton h
    refine hstep.open (hleaves op (List.mem_append_right _ (List.mem_singleton_self op))) ?_
    exact ih hrun fun op hop => hleaves op (List.mem_append_left _ hop)

/-- Ends a pipeline in a reduction of the documents themselves. Nothing else of the template changes, so the
documents that are reduced are those that would have been fetched. -/
def reduced (p : Progress) (kind : AggregateKind) : Progress :=
  { p with template := { p.template with aggregation := some ⟨kind, none, false⟩ }, stage := .terminal }

theorem step_reduced (hp : p.stage.within .paged = true) :
    p.step m (.count none) = .ok (p.reduced .count) ∧ p.step m (.any none) = .ok (p.reduced .any) := by
  have hterminal : p.stage ≠ .terminal := fun h => by rw [h] at hp; exact nomatch hp
  have hprojected : p.stage ≠ .projected := fun h => by rw [h] at hp; exact nomatch hp
  have haggregate : ∀ kind, p.aggregate m kind none = .ok (p.reduced kind) := by
    intro kind
    unfold aggregate
    dsimp only
    rw [if_neg hprojected]
    rfl
  unfold step
  rw [if_neg hterminal, if_neg hterminal]
  exact ⟨haggregate .count, haggregate .any⟩

end Progress

namespace Pipeline

variable {m : Model} {root : String} {operators : List Operator} {t : Template}

/-- A pipeline that leaves documents may end in a count, or in the question whether there are any. -/
theorem compile_reduced (h : compile m ⟨root, operators⟩ = .ok t)
    (hleaves : ∀ op ∈ operators, op.leavesDocuments = true) :
    compile m ⟨root, operators ++ [.count none]⟩ =
        .ok { t with aggregation := some ⟨.count, none, false⟩ } ∧
      compile m ⟨root, operators ++ [.any none]⟩ =
        .ok { t with aggregation := some ⟨.any, none, false⟩ } := by
  obtain ⟨type, collection, key, done, hroot, hkind, hrun, rfl⟩ := compile_spec h
  have hopen : done.Open := Progress.open_of_run hrun hleaves (Progress.open_all _ _ _)
  have happend : ∀ op last, done.step m op = .ok last →
      compile m ⟨root, operators ++ [op]⟩ = .ok last.template := by
    intro op last hlast
    have hfold : (operators ++ [op]).foldlM (Progress.step m)
        ⟨Template.all collection type.name key, .filtering, none⟩ = .ok last := by
      rw [List.foldlM_append]
      refine Except.bind_eq_ok.mpr ⟨done, hrun, ?_⟩
      rw [List.foldlM_cons]
      exact Except.bind_eq_ok.mpr ⟨last, hlast, rfl⟩
    refine Except.bind_eq_ok.mpr ⟨type, hroot, ?_⟩
    rw [hkind]
    exact Except.bind_eq_ok.mpr ⟨last, hfold, rfl⟩
  obtain ⟨hcount, hany⟩ := Progress.step_reduced (m := m) hopen.stage
  exact ⟨happend _ _ hcount, happend _ _ hany⟩

/-- The query of a pipeline that leaves documents brings them in a page or in a tail, and not for one element.
So its window is the one that the reduction has as well. -/
theorem plain_of_compile {bindings : Bindings} {q : BoundQuery} (h : compile m ⟨root, operators⟩ = .ok t)
    (hleaves : ∀ op ∈ operators, op.leavesDocuments = true) (hbind : t.bind m bindings = .ok q) :
    q.Plain := by
  obtain ⟨type, collection, key, done, -, -, hrun, rfl⟩ := compile_spec h
  have hbound := Template.bind_eq_ok hbind
  have hopen : done.Open := Progress.open_of_run hrun hleaves (Progress.open_all _ _ _)
  obtain ⟨hagg, hsequence⟩ := Progress.plain_of_run hrun fun op hop =>
    Operator.ends_of_leavesDocuments (hleaves op hop)
  refine ⟨hbound.aggregation.trans hagg, hbound.cardinality.trans hsequence, ?_⟩
  rcases hopen.paging with hnone | ⟨hskip, hlimit⟩
  · have hlast := hbound.limitToLast
    rw [hnone] at hlast
    exact .inl (Except.ok.inj hlast).symm
  · have hskipped := hbound.skip
    have hlimited := hbound.limit
    rw [hskip] at hskipped
    rw [hlimit] at hlimited
    exact .inr ⟨(Except.ok.inj hskipped).symm, (Except.ok.inj hlimited).symm⟩

end Pipeline

/-- A reduction is bound with the rest of a template. Binding looks at it nowhere else, so a template and its
reduced form are bound to queries that differ in the reduction alone. -/
theorem Template.bind_aggregation {m : Model} {bindings : Bindings} {t : Template} {q : BoundQuery}
    (h : t.bind m bindings = .ok q) (aggregation : Option Aggregation) :
    { t with aggregation := aggregation }.bind m bindings =
      .ok { q with aggregation := aggregation } := by
  obtain ⟨access, haccess, h⟩ := Except.bind_eq_ok.mp h
  obtain ⟨includes, hincludes, h⟩ := Except.bind_eq_ok.mp h
  obtain ⟨limit, hlimit, h⟩ := Except.bind_eq_ok.mp h
  obtain ⟨last, hlast, h⟩ := Except.bind_eq_ok.mp h
  obtain ⟨skip, hskip, h⟩ := Except.bind_eq_ok.mp h
  cases h
  refine Except.bind_eq_ok.mpr ⟨access, haccess, ?_⟩
  refine Except.bind_eq_ok.mpr ⟨includes, hincludes, ?_⟩
  refine Except.bind_eq_ok.mpr ⟨limit, hlimit, ?_⟩
  refine Except.bind_eq_ok.mpr ⟨last, hlast, ?_⟩
  exact Except.bind_eq_ok.mpr ⟨skip, hskip, rfl⟩

/-! ## Runs that count -/

theorem Json.toSigned?_count {n : Nat} (h : (n : Int) < Number.signedBound) :
    (Json.count n).toSigned? = some (n : Int) := by
  unfold Json.toSigned? Json.count Json.toNumber?
  rw [Option.bind_some, Number.ofNat, Number.toSigned?]
  exact if_pos h

theorem Json.toInteger_of_toSigned? {raw : Json} {i : Int} (h : raw.toSigned? = some i) :
    raw.toInteger = .ok i := by
  unfold Json.toInteger
  rw [h]

/-- A count that fits a signed word is converted to itself. -/
theorem ScalarType.convert_count {m : Model} {n : Nat} (h : (n : Int) < Number.signedBound) :
    ScalarType.int.convert m (.count n) = .ok (.int n) := by
  have hpresent : (Json.count n).isNull = false := rfl
  rw [ScalarType.convert, hpresent, ScalarType.convertPresent,
    Json.toInteger_of_toSigned? (Json.toSigned?_count h)]
  rfl

namespace Engine

variable {e : Engine} {root : String} {operators : List Operator} {t : Template} {bindings : Bindings}
  {q : BoundQuery} {s : Store}

theorem compile_reduced (h : e.compile ⟨root, operators⟩ = .ok t)
    (hleaves : ∀ op ∈ operators, op.leavesDocuments = true) :
    e.compile ⟨root, operators ++ [.count none]⟩ =
        .ok { t with aggregation := some ⟨.count, none, false⟩ } ∧
      e.compile ⟨root, operators ++ [.any none]⟩ =
        .ok { t with aggregation := some ⟨.any, none, false⟩ } := by
  obtain ⟨hcompiled, hentities⟩ := compile_spec h
  obtain ⟨hcount, hany⟩ := Pipeline.compile_reduced hcompiled hleaves
  have hlet : ¬ (!t.includes.isEmpty && t.projection != .entity) = true := by
    rcases hentities with hnone | hentity
    · rw [hnone]
      exact Bool.false_ne_true
    · rw [hentity, bne_self_eq_false, Bool.and_false]
      exact Bool.false_ne_true
  constructor
  · refine Except.bind_eq_ok.mpr ⟨_, hcount, ?_⟩
    exact if_neg hlet
  · refine Except.bind_eq_ok.mpr ⟨_, hany, ?_⟩
    exact if_neg hlet

/-- A run of a query whose result is a value converts it to the type of the reduction, and does nothing else. -/
theorem execute_of_value {value : Json} (hbind : t.bind e.model bindings = .ok q)
    (h : q.outcome e.settings.limits s = .ok (.value value)) (plans : PlanCache) :
    ((e.execute t bindings).run (start (.ofStore s) plans)).1 =
      (e.reductionValue q value).map .scalar := by
  obtain ⟨c, -, hfetch⟩ := q.fetch_gives e.settings _ (Connection.ofStore_serves s)
  rw [h] at hfetch
  have hbound : (e.execute t bindings).run (start (.ofStore s) plans) =
      (e.executeBound q).run (start (.ofStore s) plans) := by
    unfold execute
    rw [hbind]
    rfl
  rw [hbound, executeBound, run_bind_state, Run.run_connected, start, hfetch]
  dsimp only
  cases e.reductionValue q value <;> rfl

theorem reductionValue_counted (value : Json) :
    e.reductionValue q.counted value = ScalarType.int.convert e.model value :=
  rfl

theorem reductionValue_any (value : Json) :
    e.reductionValue q.any value = ScalarType.bool.convert e.model value :=
  rfl

/-- A count and the question whether there is anything agree with the documents. A pipeline that leaves
documents may end in either; where it fetches documents without, the count is how many there are, and the
answer to the question is whether there are any. A count is a signed word, and a store in memory holds no more
documents than that.

That the fetch succeeds is assumed of the pipeline without the reduction, and with it both reductions are
proved to succeed: they are planned, answered and converted. The operators are any that leave documents, and
the store is any well-formed one, with or without disjunctions of its own. -/
theorem execute_counted (hcompile : e.compile ⟨root, operators⟩ = .ok t)
    (hleaves : ∀ op ∈ operators, op.leavesDocuments = true)
    (hbind : t.bind e.model bindings = .ok q) (hwf : s.WellFormed)
    (hcount : ((s.documents q.collection).length : Int) < Number.signedBound) {fetched : Fetched}
    (hfetch : ((q.fetch e.settings).run (.ofStore s)).1 = .ok fetched) (plans : PlanCache) :
    ∃ documents counted any, fetched = .documents documents ∧
      e.compile ⟨root, operators ++ [.count none]⟩ = .ok counted ∧
      ((e.execute counted bindings).run (start (.ofStore s) plans)).1 =
        .ok (.scalar (.int documents.length)) ∧
      e.compile ⟨root, operators ++ [.any none]⟩ = .ok any ∧
      ((e.execute any bindings).run (start (.ofStore s) plans)).1 =
        .ok (.scalar (.bool !documents.isEmpty)) := by
  have hplain := Pipeline.plain_of_compile (compile_spec hcompile).1 hleaves hbind
  obtain ⟨hcounted, hany⟩ := compile_reduced hcompile hleaves
  rw [(q.fetch_gives e.settings).result] at hfetch
  obtain ⟨documents, rfl⟩ : ∃ documents, fetched = .documents documents := by
    obtain ⟨-, _, _, -, -, rfl⟩ := (BoundQuery.outcome_of_documents hplain.aggregation).mp hfetch
    exact ⟨_, rfl⟩
  unfold Number.signedBound at hcount
  have hmax : (s.documents q.collection).length ≤ Number.maxCount := by
    unfold Number.maxCount
    omega
  have hfits : (documents.length : Int) < Number.signedBound := by
    have hlength := BoundQuery.length_outcome_le hwf hmax hplain hfetch
    unfold Number.signedBound
    omega
  refine ⟨documents, _, _, rfl, hcounted, ?_, hany, ?_⟩
  · rw [execute_of_value (q := q.counted) (Template.bind_aggregation hbind _)
      (BoundQuery.outcome_counted hmax hplain hfetch), reductionValue_counted,
      ScalarType.convert_count hfits]
    rfl
  · rw [execute_of_value (q := q.any) (Template.bind_aggregation hbind _)
      (BoundQuery.outcome_any hwf hmax hplain hfetch), reductionValue_any]
    rfl

/-- The page of the second note is counted: there is one on it. -/
theorem execute_counted_secondNote :
    ∃ counted any,
      (⟨.notes, .standard⟩ : Engine).compile ⟨"Note", Pipeline.secondNote.operators ++ [.count none]⟩ =
          .ok counted ∧
        (((⟨.notes, .standard⟩ : Engine).execute counted []).run
          (start (.ofStore (Store.notes true)) default)).1 = .ok (.scalar (.int 1)) ∧
      (⟨.notes, .standard⟩ : Engine).compile ⟨"Note", Pipeline.secondNote.operators ++ [.any none]⟩ =
          .ok any ∧
        (((⟨.notes, .standard⟩ : Engine).execute any []).run
          (start (.ofStore (Store.notes true)) default)).1 = .ok (.scalar (.bool true)) := by
  obtain ⟨t, hcompile, hbind⟩ : ∃ t,
      (⟨.notes, .standard⟩ : Engine).compile Pipeline.secondNote = .ok t ∧
        t.bind Model.notes [] = .ok Pipeline.secondNoteQuery :=
    ⟨_, rfl, rfl⟩
  have hfetch : ((Pipeline.secondNoteQuery.fetch .standard).run (.ofStore (Store.notes true))).1 =
      .ok (.documents [⟨"notes/b", .obj [("rank", .int 2), ("tag", .str "y")]⟩]) := by
    rw [BoundQuery.fetch_of_query rfl rfl rfl (.inl rfl) (by decide), Store.answer_of_sorted (by decide)]
    rfl
  obtain ⟨documents, counted, any, heq, hcounted, hcount, hany, hfound⟩ :=
    execute_counted hcompile (by decide) hbind (Store.notes_wellFormed true) (by decide) hfetch default
  cases heq
  exact ⟨counted, any, hcounted, hcount, hany, hfound⟩

end Engine

end DocumentQuery
