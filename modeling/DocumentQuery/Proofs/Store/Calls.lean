import DocumentQuery.Plan.Run
import DocumentQuery.Proofs.Store.Together
import DocumentQuery.Proofs.Success

/-!
# What computations read from the store

A connection counts calls and may be cancelled or disturbed. A computation on it may then fail where it
would succeed otherwise, but it is never answered differently: `Connected.Answers s x r` says that the
computation `x`, on any connection to a store with the contents of `s`, fails or has the result `r`,
leaves the contents as they are, and has the result `r` if nothing disturbs the connection. The lemmas
compute the result along the structure of a computation, up to `BoundQuery.fetch_answers`, where the
result of a run is the plain function `ExecutionPlan.outcome` of the plan and the contents.

`Connected.Gives s x r` keeps the part that is about undisturbed connections.

A disturbance may be that a call fails, that the token is fired, or that a call is never answered. In none of
these cases does a computation succeed with another result than it would have had, which is why one statement
can be about all connections. Calls that are started together are answered in the order in which they are
made.
-/

namespace DocumentQuery

/-- Connections that nothing disturbs, to a store with given contents. -/
structure Connection.Serves (c : Connection) (s : Store) : Prop where
  /-- The token was not fired. -/
  running : c.cancelled = false
  /-- No call is disturbed. -/
  undisturbed : c.disturbed = none
  /-- No call was left waiting. -/
  settled : c.waiting = false
  collections : c.store.collections = s.collections
  nativeOr : c.store.nativeOr = s.nativeOr

/-- A connection that was just made is one. -/
theorem Connection.ofStore_serves (s : Store) : (Connection.ofStore s).Serves s :=
  ⟨rfl, rfl, rfl, rfl, rfl⟩

/-- Connections to a store with given contents, whatever may happen on them. -/
structure Connection.Reads (c : Connection) (s : Store) : Prop where
  /-- The store has the given contents. -/
  collections : c.store.collections = s.collections
  nativeOr : c.store.nativeOr = s.nativeOr

theorem Connection.reads_store (c : Connection) : c.Reads c.store :=
  ⟨rfl, rfl⟩

theorem Connection.Serves.reads {c : Connection} {s : Store} (h : c.Serves s) : c.Reads s :=
  ⟨h.collections, h.nativeOr⟩

namespace Connected

variable {α β : Type} {s : Store}

/-- A computation goes on where its first part has succeeded. -/
theorem run_bind_ok {x : Connected α} {c c' : Connection} {a : α} (f : α → Connected β)
    (h : x.run c = (.ok a, c')) : (x >>= f).run c = (f a).run c' := by
  simp only [ExceptT.run_bind]
  simp [bind, StateT.bind, h]

/-- It ends where its first part has failed. -/
theorem run_bind_error {x : Connected α} {c c' : Connection} {e : Failure} (f : α → Connected β)
    (h : x.run c = (.error e, c')) : (x >>= f).run c = (.error e, c') := by
  simp only [ExceptT.run_bind]
  simp only [bind, StateT.bind, h]
  rfl

/-- The result of a computation on connections to the contents of a store: on none of them does it have
another result, and it has this one where nothing disturbs the connection. -/
def Answers (s : Store) (x : Connected α) (r : Except Failure α) : Prop :=
  ∀ c : Connection, c.Reads s →
    (x.run c).2.Reads s ∧ (∀ a, (x.run c).1 = .ok a → r = .ok a) ∧
      (c.Serves s → (x.run c).1 = r ∧ (x.run c).2.Serves s)

/-- A result that is known is the result. -/
theorem answers_pure (a : α) : Answers s (pure a) (.ok a) :=
  fun _ hc => ⟨hc, fun _ h => h, fun hs => ⟨rfl, hs⟩⟩

theorem answers_ofExcept (r : Except Failure α) : Answers s (ofExcept r) r := by
  intro c hc
  cases r with
  | error e => exact ⟨hc, fun _ h => h, fun hs => ⟨rfl, hs⟩⟩
  | ok a => exact ⟨hc, fun _ h => h, fun hs => ⟨rfl, hs⟩⟩

/-- A computation goes on with the result of its first part, if there is one. -/
theorem Answers.bind {x : Connected α} {r : Except Failure α} {f : α → Connected β}
    {g : α → Except Failure β} (hx : Answers s x r) (hf : ∀ a, Answers s (f a) (g a)) :
    Answers s (x >>= f) (r >>= g) := by
  intro c hc
  obtain ⟨hreads, hresult, hserves⟩ := hx c hc
  rcases hrun : x.run c with ⟨result, c'⟩
  rw [hrun] at hreads hresult hserves
  cases result with
  | error e =>
    rw [run_bind_error f hrun]
    refine ⟨hreads, fun _ h => (by cases h), fun hs => ?_⟩
    obtain ⟨hr, hs'⟩ := hserves hs
    exact ⟨by rw [← hr]; rfl, hs'⟩
  | ok a =>
    rw [run_bind_ok f hrun, hresult a rfl]
    obtain ⟨hreads', hresult', hserves'⟩ := hf a c' hreads
    exact ⟨hreads', hresult', fun hs => hserves' (hserves hs).2⟩

/-- What is made of a result is made of it once more when the computation is done. -/
theorem Answers.map {x : Connected α} {r : Except Failure α} (hx : Answers s x r) (f : α → β) :
    Answers s (x >>= fun a => pure (f a)) (r.map f) := by
  have h := hx.bind (f := fun a => pure (f a)) (g := fun a => .ok (f a)) fun a => answers_pure (f a)
  cases r <;> exact h

/-- Branches have the results of their parts, whether they are started together or not: on a connection that
nothing disturbs neither of them is left waiting. -/
theorem answers_together {x : Connected α} {r : Except Failure α} {y : Connected β} {r' : Except Failure β}
    (parallel : Bool) (hx : Answers s x r) (hy : Answers s y r') :
    Answers s (together parallel x y) (r >>= fun a => r'.map (a, ·)) := by
  intro c hc
  obtain ⟨hreads, hresult, hserves⟩ := hx c hc
  rcases hrun : x.run c with ⟨e | a, c'⟩ <;> rw [hrun] at hreads hresult hserves <;>
    obtain ⟨hreads', hresult', hserves'⟩ := hy c' hreads
  · rcases run_together_of_error parallel y hrun with h | ⟨hwaits, ⟨_, -, h⟩ | ⟨_, -, h⟩⟩ <;> rw [h]
    · refine ⟨hreads, fun _ ha => (nomatch ha), fun hs => ?_⟩
      obtain ⟨hr, hs'⟩ := hserves hs
      exact ⟨by rw [← hr]; rfl, hs'⟩
    · exact ⟨hreads', fun _ ha => (nomatch ha), fun hs =>
        nomatch hwaits.2.symm.trans (hserves hs).2.settled⟩
    · exact ⟨⟨hreads'.collections, hreads'.nativeOr⟩, fun _ ha => (nomatch ha), fun hs =>
        nomatch hwaits.2.symm.trans (hserves hs).2.settled⟩
  · rw [run_together_of_ok parallel y hrun, hresult a rfl]
    refine ⟨hreads', fun p hp => ?_, fun hs => ?_⟩
    · obtain ⟨b, hb, rfl⟩ := Except.map_eq_ok.mp hp
      exact congrArg (Except.map (a, ·)) (hresult' b hb)
    · obtain ⟨hr, hs'⟩ := hserves' (hserves hs).2
      exact ⟨congrArg (Except.map (a, ·)) hr, hs'⟩

/-- The result of a computation on every undisturbed connection to the contents of a store. -/
def Gives (s : Store) (x : Connected α) (r : Except Failure α) : Prop :=
  ∀ c : Connection, c.Serves s → ∃ c' : Connection, c'.Serves s ∧ x.run c = (r, c')

theorem Answers.gives {x : Connected α} {r : Except Failure α} (h : Answers s x r) : Gives s x r := by
  intro c hc
  obtain ⟨hresult, hserves⟩ := (h c hc.reads).2.2 hc
  exact ⟨_, hserves, Prod.ext hresult rfl⟩

/-- A result that is known on one connection is the result that is given. -/
theorem Gives.result {x : Connected α} {r : Except Failure α} (hx : Gives s x r) :
    (x.run (.ofStore s)).1 = r := by
  obtain ⟨c', -, h⟩ := hx _ (Connection.ofStore_serves s)
  exact congrArg Prod.fst h

/-! ## Calls -/

/-- Looking at the token succeeds unless it was fired. -/
theorem answers_checkCancelled : Answers s checkCancelled (.ok ()) := by
  intro c hc
  obtain ⟨store, attempts, cancelled, disturbed, waiting⟩ := c
  cases cancelled with
  | true => exact ⟨hc, fun _ h => (by cases h), fun hs => by cases hs.running⟩
  | false => exact ⟨hc, fun _ _ => rfl, fun hs => ⟨rfl, hs⟩⟩

/-- What a call does. -/
theorem run_call (request : Store.Call α) (c : Connection) :
    (call request).run c =
      if c.cancelled then (.error .cancelled, c)
      else match (c.disturbanceAt? (c.attempts + 1)).bind Disturbance.failure? with
        | some failure => (.error failure, c.attempt (c.disturbanceAt? (c.attempts + 1)))
        | none => ((request c.store).1.mapError .store,
            { c.attempt (c.disturbanceAt? (c.attempts + 1)) with store := (request c.store).2 }) := by
  obtain ⟨store, attempts, cancelled, disturbed, waiting⟩ := c
  cases cancelled with
  | true => rfl
  | false =>
    have hcheck : checkCancelled.run ⟨store, attempts, false, disturbed, waiting⟩ =
        (.ok (), ⟨store, attempts, false, disturbed, waiting⟩) := rfl
    have hget : (get : Connected Connection).run ⟨store, attempts, false, disturbed, waiting⟩ =
        (.ok ⟨store, attempts, false, disturbed, waiting⟩,
          ⟨store, attempts, false, disturbed, waiting⟩) := rfl
    unfold call
    rw [run_bind_ok _ hcheck, run_bind_ok _ hget, if_neg Bool.false_ne_true]
    dsimp only
    cases (Connection.disturbanceAt? ⟨store, attempts, false, disturbed, waiting⟩ (attempts + 1)).bind
        Disturbance.failure? with
    | some failure => rfl
    | none =>
      dsimp only [Connection.attempt]
      rcases request store with ⟨_ | _, _⟩ <;> rfl

theorem disturbed_of_disturbanceAt? {c : Connection} {attempt : Nat} {disturbance : Disturbance}
    (h : c.disturbanceAt? attempt = some disturbance) : c.disturbed = some (attempt, disturbance) := by
  unfold Connection.disturbanceAt? at h
  split at h
  next n _ hdisturbed =>
    split at h
    next hn => rw [hdisturbed, ← hn, Option.some.inj h]
    · cases h
  · cases h

/-- A call fails and leaves the store as it was, or has the answer of the request. It fails only on a
connection that is cancelled or disturbed, because of that. -/
theorem call_cases (c : Connection) (request : Store.Call α) :
    ((call request).run c).2.disturbed = c.disturbed ∧
      (((c.cancelled = true ∨ c.disturbed ≠ none) ∧
          (∃ e, ((call request).run c).1 = .error e ∧ (e = .cancelled ∨
            ∃ n disturbance, c.disturbed = some (n, disturbance) ∧ disturbance.failure? = some e)) ∧
          ((call request).run c).2.store = c.store) ∨
        (((call request).run c).1 = (request c.store).1.mapError Failure.store ∧
          ((call request).run c).2.store = (request c.store).2 ∧
          (c.disturbed = none → ((call request).run c).2.cancelled = c.cancelled ∧
            ((call request).run c).2.waiting = c.waiting))) := by
  rw [run_call]
  split
  next hcancelled => exact ⟨rfl, Or.inl ⟨Or.inl hcancelled, ⟨_, rfl, Or.inl rfl⟩, rfl⟩⟩
  split
  next failure hfailure =>
    obtain ⟨disturbance, hd, hfailure⟩ := Option.bind_eq_some_iff.mp hfailure
    have hdisturbed := disturbed_of_disturbanceAt? hd
    have hne : c.disturbed ≠ none := by rw [hdisturbed]; exact nofun
    exact ⟨rfl, Or.inl ⟨Or.inr hne, ⟨_, rfl, Or.inr ⟨_, disturbance, hdisturbed, hfailure⟩⟩, rfl⟩⟩
  next =>
    refine ⟨rfl, Or.inr ⟨rfl, rfl, fun hnone => ?_⟩⟩
    have hquiet : c.disturbanceAt? (c.attempts + 1) = none := by
      unfold Connection.disturbanceAt?
      rw [hnone]
    rw [hquiet]
    exact ⟨Bool.or_false _, Bool.or_false _⟩

/-- A call that answers from the contents of the store, and leaves them alone, has that answer. -/
theorem call_answers {request : Store.Call α} {r : Except StoreError α}
    (answers : ∀ t : Store, t.collections = s.collections → t.nativeOr = s.nativeOr →
      (request t).1 = r ∧ (request t).2.collections = t.collections ∧
        (request t).2.nativeOr = t.nativeOr) :
    Answers s (call request) (r.mapError Failure.store) := by
  intro c hc
  obtain ⟨hr, hcollections, hnativeOr⟩ := answers c.store hc.collections hc.nativeOr
  obtain ⟨hdisturbed, hcases⟩ := call_cases c request
  rcases hcases with ⟨hwhy, ⟨e, hresult, -⟩, hstore⟩ | ⟨hresult, hstore, hkept⟩
  · refine ⟨⟨hstore ▸ hc.collections, hstore ▸ hc.nativeOr⟩, fun a ha => ?_, fun hs => ?_⟩
    · rw [hresult] at ha
      cases ha
    · rw [hs.running, hs.undisturbed] at hwhy
      simp at hwhy
  · have hreads : ((call request).run c).2.Reads s :=
      ⟨by rw [hstore]; exact hcollections.trans hc.collections,
        by rw [hstore]; exact hnativeOr.trans hc.nativeOr⟩
    refine ⟨hreads, fun a ha => by rw [← hr, ← hresult, ha], fun hs => ?_⟩
    obtain ⟨hcancelled, hwaiting⟩ := hkept hs.undisturbed
    exact ⟨by rw [hresult, hr], ⟨hcancelled.trans hs.running, hdisturbed.trans hs.undisturbed,
      hwaiting.trans hs.settled, hreads.collections, hreads.nativeOr⟩⟩

/-- A document is answered from the contents. -/
theorem getDocument_answers (collection id : String) :
    Answers s (getDocument collection id) (.ok (s.find? collection id)) :=
  call_answers (r := .ok (s.find? collection id)) fun t hc _ =>
    ⟨by simp only [Store.getDocument, Store.find?, hc], rfl, rfl⟩

/-- Stores with the same contents evaluate a query alike. -/
theorem evaluate_congr {t : Store} (hc : t.collections = s.collections)
    (hn : t.nativeOr = s.nativeOr) (q : StoreQuery) : t.evaluate q = s.evaluate q := by
  simp only [Store.evaluate, Store.rejection?, Store.answer, Store.documents, hc, hn]

/-- So is a query. -/
theorem runQuery_answers (q : StoreQuery) :
    Answers s (runQuery q) ((s.evaluate q).mapError Failure.store) :=
  call_answers fun _ hc hn => ⟨evaluate_congr hc hn q, rfl, rfl⟩

/-- So is a reduction. -/
theorem aggregate_answers (q : StoreQuery) (reduction : StoreReduction) :
    Answers s (aggregate q reduction)
      (((s.evaluate q).map fun ds => Store.reduce ds reduction).mapError Failure.store) :=
  call_answers fun t hc hn => ⟨by simp only [Store.aggregate, evaluate_congr hc hn], rfl, rfl⟩

/-- Queries are answered one by one, whether they are sent together or not. -/
theorem runQueries_answers (parallel : Bool) (qs : List StoreQuery) :
    Answers s (runQueries parallel qs) ((qs.mapM s.evaluate).mapError Failure.store) := by
  induction qs with
  | nil => exact answers_pure []
  | cons q qs ih =>
    have h := (answers_together parallel (runQuery_answers (s := s) q) ih).map fun p => p.1 :: p.2
    rw [List.mapM_cons]
    cases hq : s.evaluate q with
    | error e =>
      rw [hq] at h
      exact h
    | ok ds =>
      rw [hq] at h
      cases hqs : qs.mapM s.evaluate <;> rw [hqs] at h <;> exact h

end Connected

/-! ## Runs of plans -/

variable {s : Store}

/-- The documents of a source, answered from the contents of a store: the specification of the calls that
fetch them. -/
def Source.answer (s : Store) (orderBy : List StoreOrder) : Source → Except StoreError (List Document)
  | .lookup collectionPath id => .ok (s.find? collectionPath id).toList
  | .query q => s.evaluate q
  | .disjunction queries => (queries.mapM s.evaluate).map (Document.merge orderBy)

/-- Fetching the documents of a source answers them. -/
theorem Source.documents_answers (parallel : Bool) (orderBy : List StoreOrder) (source : Source) :
    Connected.Answers s (source.documents parallel orderBy)
      ((source.answer s orderBy).mapError Failure.store) := by
  cases source with
  | lookup collectionPath id =>
    exact (Connected.getDocument_answers collectionPath id).map Option.toList
  | query q => exact Connected.runQuery_answers q
  | disjunction queries =>
    have h := (Connected.runQueries_answers (s := s) parallel queries).map (Document.merge orderBy)
    simp only [answer]
    cases hq : queries.mapM s.evaluate <;> rw [hq] at h <;> exact h

/-- The window is applied to what was fetched. -/
theorem Source.fetch_answers (parallel : Bool) (orderBy : List StoreOrder) (window : Window)
    (source : Source) : Connected.Answers s (source.fetch parallel orderBy window)
      (((source.answer s orderBy).map window.apply).mapError Failure.store) := by
  have h := (source.documents_answers (s := s) parallel orderBy).map window.apply
  cases hs : source.answer s orderBy <;> rw [hs] at h <;> exact h

/-- On an undisturbed connection the window of the answer is the result. -/
theorem Source.fetch_gives (parallel : Bool) (orderBy : List StoreOrder) (window : Window)
    (source : Source) : Connected.Gives s (source.fetch parallel orderBy window)
      (((source.answer s orderBy).map window.apply).mapError Failure.store) :=
  (source.fetch_answers parallel orderBy window).gives

/-- The result of a reduction that is not left to the store. -/
def Reduction.ofDocuments (documents : List Document) : Reduction → Except Failure Fetched
  | .client kind path nullable => (Reduction.fold kind path nullable documents).map .value
  | _ => .ok (.documents documents)

namespace ExecutionPlan

/-- The result of a plan whose documents are fetched, answered from the contents of a store. -/
def collected (s : Store) (plan : ExecutionPlan) : Except Failure Fetched := do
  let documents ← (plan.source.answer s plan.orderBy).mapError Failure.store
  plan.reduction.ofDocuments (plan.window.apply documents)

/-- The result of a plan, answered from the contents of a store. -/
def outcome (s : Store) (plan : ExecutionPlan) : Except Failure Fetched :=
  match plan.reduction, plan.source with
  | .native reduction, .query q => do
    let answer ← ((s.evaluate q).map fun ds => Store.reduce ds reduction).mapError Failure.store
    let value ← Reduction.finish reduction plan.window.skip answer
    return .value value
  | _, _ => plan.collected s

/-- A plan whose documents are fetched has the result that they are reduced to. -/
theorem collect_answers (parallel : Bool) (plan : ExecutionPlan) :
    Connected.Answers s (plan.collect parallel) (plan.collected s) := by
  have h := (plan.source.fetch_answers (s := s) parallel plan.orderBy plan.window).bind
    (g := fun documents => plan.reduction.ofDocuments documents) fun documents => by
      show Connected.Answers s
        (match plan.reduction with
          | .client kind path nullable => do
            let value ← Connected.ofExcept (Reduction.fold kind path nullable documents)
            return Fetched.value value
          | _ => return Fetched.documents documents) _
      cases hr : plan.reduction with
      | documents => exact Connected.answers_pure _
      | native reduction => exact Connected.answers_pure _
      | client kind path nullable => exact (Connected.answers_ofExcept _).map Fetched.value
  unfold collected
  cases hs : plan.source.answer s plan.orderBy <;> rw [hs] at h <;> exact h

/-- A plan has its outcome. -/
theorem run_answers (parallel : Bool) (plan : ExecutionPlan) :
    Connected.Answers s (plan.run parallel) (plan.outcome s) := by
  obtain ⟨source, orderBy, window, reduction⟩ := plan
  cases reduction with
  | documents => exact collect_answers parallel _
  | client kind path nullable => exact collect_answers parallel _
  | native reduction =>
    cases source with
    | lookup collectionPath id => exact collect_answers parallel _
    | disjunction queries => exact collect_answers parallel _
    | query q =>
      refine (Connected.aggregate_answers q reduction).bind fun answer => ?_
      have h := (Connected.answers_ofExcept (s := s)
        (Reduction.finish reduction window.skip answer)).map Fetched.value
      cases hf : Reduction.finish reduction window.skip answer <;> rw [hf] at h <;> exact h

end ExecutionPlan

namespace BoundQuery

/-- The result of a query, answered from the contents of a store. -/
def outcome (limits : QueryLimits) (s : Store) (q : BoundQuery) : Except Failure Fetched := do
  let plan ← q.plan limits s.nativeOr
  plan.outcome s

/-- A query has no result but the one its plan has for the contents of the store, on whatever connection, and
it has this one if nothing disturbs the connection. -/
theorem fetch_answers (settings : Settings) (q : BoundQuery) :
    Connected.Answers s (q.fetch settings) (q.outcome settings.limits s) := by
  intro c hc
  have h := (Connected.answers_ofExcept (s := s) (q.plan settings.limits s.nativeOr)).bind
    fun plan => plan.run_answers settings.execution.parallelDisjunctions
  rw [show (q.fetch settings).run c = (Connected.ofExcept (q.plan settings.limits c.store.nativeOr) >>=
    ExecutionPlan.run settings.execution.parallelDisjunctions).run c from rfl,
    hc.nativeOr]
  exact h c hc

/-- On an undisturbed connection, a query has the result its plan has for the contents of the store. -/
theorem fetch_gives (settings : Settings) (q : BoundQuery) :
    Connected.Gives s (q.fetch settings) (q.outcome settings.limits s) :=
  (q.fetch_answers settings).gives

end BoundQuery

end DocumentQuery
