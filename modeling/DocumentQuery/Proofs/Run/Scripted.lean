import DocumentQuery.Proofs.Run.Script
import DocumentQuery.Proofs.Run.Sending

/-!
# Runs are scripts

Of its connection a run reads only whether the store knows disjunction, and after that only answers. So
from a given workspace it is the play of one script on all connections to such stores, however they are
disturbed (`Run.Follows`). The rules go from calls to sources and plans, then to navigations, by recursion
on what is loaded, and to the whole run (`Engine.scripted_execute`).

Branches that are started together are the one place where something is put beside a request. What is there
is itself a run, and it is one of few kinds (`Engine.Meanwhile`): the other queries of the same disjunction
are sent, and navigations are loaded that stand beside the one that the request belongs to, or beside one
above it. The rules keep account of this (`Script.Within`).

Calls look whether the run is cancelled before they are made. What a query brings is fetched without
looking at any other place (`Run.Asks`).
-/

namespace DocumentQuery

/-! ## Runs that follow scripts -/

/-- What may go on in a run while a request is left waiting. -/
inductive Engine.Meanwhile (e : Engine) (includes : List Loading) (r : Store.Request) : Run Unit → Prop
  /-- Nothing goes on. -/
  | nothing : Meanwhile e includes r (pure ())
  /-- Other queries of a disjunction are sent. -/
  | queries {qs : List StoreQuery} (parallel : e.settings.execution.parallelDisjunctions = true)
      (alternatives : ∀ q ∈ qs, r.IsAlternative (.runQuery q)) :
      Meanwhile e includes r (Run.connected (Connected.runQueries true qs) >>= fun _ => pure ())
  /-- After what goes on further inside, other navigations of an instance are loaded. -/
  | navigations {rest : Run Unit} {ls : List Loading}
      (parallel : e.settings.execution.parallelIncludes = true) (hrest : Meanwhile e includes r rest)
      (hls : ∀ l ∈ ls, Loading.Below includes l) (owner : InstanceId) (d : Document) :
      Meanwhile e includes r (rest >>= fun _ => Loading.loadAll e.model e.settings ls owner d)

namespace Run

variable {nativeOr : Bool} {α β : Type}

/-- A run from a workspace is the play of a script on every connection to a store that knows disjunctions or
does not. Whether it knows them has to be fixed, since the plan of a query depends on it before any call is
made. -/
def Follows (nativeOr : Bool) (x : Run α) (w : Workspace) (d : Script α) : Prop :=
  ∀ c : Connection, c.store.nativeOr = nativeOr → x.run ⟨c, w⟩ = d.play c

end Run

/-- Whether there is nothing beside the requests of a script but what may go on in a run. The script of what
is beside a request has to be followed by the run that goes on. -/
def Script.Within {α : Type} (e : Engine) (includes : List Loading) (nativeOr : Bool) : Script α → Prop
  | .done _ _ => True
  | .check _ next => next.Within e includes nativeOr
  | .ask request workspace next beside =>
    (∃ rest, e.Meanwhile includes request rest ∧ rest.Follows nativeOr workspace beside) ∧
      ∀ answer, (next answer).Within e includes nativeOr

namespace Run

variable {e : Engine} {includes : List Loading} {nativeOr : Bool} {α β : Type}

/-- A run that follows a script from every workspace. The script may be another one for each, as what is made
of an answer depends on the graph. -/
def Scripted (e : Engine) (includes : List Loading) (nativeOr : Bool) (x : Run α) : Prop :=
  ∃ script : Workspace → Script α, ∀ w,
    (script w).Within e includes nativeOr ∧ x.Follows nativeOr w (script w)

/-- A run that follows a script and looks whether it is cancelled only when it asks. -/
def Asks (e : Engine) (includes : List Loading) (nativeOr : Bool) (x : Run α) : Prop :=
  ∃ script : Workspace → Script α, ∀ w,
    (script w).Unchecked ∧ (script w).Within e includes nativeOr ∧ x.Follows nativeOr w (script w)

theorem Asks.scripted {x : Run α} (hx : x.Asks e includes nativeOr) : x.Scripted e includes nativeOr := by
  obtain ⟨script, hscript⟩ := hx
  exact ⟨script, fun w => (hscript w).2⟩

/-- A run on a connection on which nothing happens makes the calls of its script and ends as the store
decides. -/
theorem Follows.run_ofStore {x : Run α} {w : Workspace} {d : Script α} {s : Store}
    (h : x.Follows s.nativeOr w d) : x.run ⟨.ofStore s, w⟩ =
      ((d.outcome s).1, ⟨(Connection.ofStore s).made (d.calls s), (d.outcome s).2⟩) :=
  (h (.ofStore s) rfl).trans (Script.play_of_quiet (Connection.quiet_ofStore s _))

/-- A run goes on with a script where its first part follows one. The rest follows its own script from the
workspace in which the first part ends. -/
theorem Follows.bind {x : Run α} {f : α → Run β} {w : Workspace} {d : Script α}
    {next : α → Workspace → Script β} (hx : x.Follows nativeOr w d)
    (hf : ∀ a w', (f a).Follows nativeOr w' (next a w')) : (x >>= f).Follows nativeOr w (d.bind next) := by
  intro c hc
  have hstore : (d.play c).2.connection.store.nativeOr = nativeOr := (d.play_nativeOr c).trans hc
  rw [run_bind_state, Script.play_bind, hx c hc]
  rcases hplay : d.play c with ⟨_ | a, s⟩
  · rfl
  · rw [hplay] at hstore
    exact hf a s.workspace s.connection hstore

/-- Branches of a run follow branches of a script. If they are not started together, nothing of the second one
is beside the first. -/
theorem Follows.branches {x : Run α} {y : Run β} {w : Workspace} {d : Script α}
    {next : Workspace → Script β} (parallel : Bool) (hx : x.Follows nativeOr w d)
    (hy : ∀ w', y.Follows nativeOr w' (next w')) :
    Follows nativeOr (together parallel x y) w (d.branches parallel next) := by
  intro c hc
  have hstore : (d.play c).2.connection.store.nativeOr = nativeOr := (d.play_nativeOr c).trans hc
  have hrun := hx c hc
  unfold together
  rw [ExceptT.run_mk, hrun]
  cases parallel with
  | false =>
    show _ = (d.bind _).play c
    rw [Script.play_bind]
    rcases hplay : d.play c with ⟨_ | a, s⟩
    · rfl
    · rw [hplay] at hstore
      dsimp only
      rw [hy s.workspace s.connection hstore, Script.play_map]
      rcases (next s.workspace).play s.connection with ⟨_ | _, _⟩ <;> rfl
  | true =>
    show _ = (d.together next).play c
    rw [Script.play_together]
    rcases hplay : d.play c with ⟨_ | a, s⟩ <;> rw [hplay] at hstore <;> dsimp only <;>
      rw [hy s.workspace s.connection hstore]
    · rw [Bool.true_and]
      rcases (next s.workspace).play s.connection with ⟨_ | _, _⟩ <;> rfl
    · rcases (next s.workspace).play s.connection with ⟨_ | _, _⟩ <;> rfl

/-- Of what is beside a request nobody looks at the result. -/
theorem Follows.map_unit {x : Run Unit} {w : Workspace} {d : Script Unit}
    (hx : x.Follows nativeOr w d) : x.Follows nativeOr w (d.map fun _ => ()) := by
  intro c hc
  rw [hx c hc, Script.play_map]
  rcases d.play c with ⟨_ | _, _⟩ <;> rfl

end Run

namespace Script

variable {e : Engine} {includes : List Loading} {nativeOr : Bool} {α β : Type}

theorem Within.bind {f : α → Workspace → Script β} {d : Script α} (hd : d.Within e includes nativeOr)
    (hf : ∀ a w, (f a w).Within e includes nativeOr) : (d.bind f).Within e includes nativeOr := by
  induction d with
  | done result workspace =>
    cases result with
    | error e => trivial
    | ok a => exact hf a workspace
  | check _ _ ih => exact ih hd hf
  | ask request workspace next _ ih _ => exact ⟨hd.1, fun answer => ih answer (hd.2 answer) hf⟩

theorem Within.map {d : Script α} (hd : d.Within e includes nativeOr) (f : α → β) :
    (d.map f).Within e includes nativeOr :=
  hd.bind fun _ _ => trivial

/-- Other navigations may be loaded beside those that are loaded now. -/
theorem Within.branches {d : Script α} {ls : List Loading} {owner : InstanceId} {record : Document}
    {f : Workspace → Script Unit} (hd : d.Within e includes nativeOr)
    (hls : ∀ l ∈ ls, Loading.Below includes l) (hf : ∀ w, (f w).Within e includes nativeOr)
    (hfollows : ∀ w, (Loading.loadAll e.model e.settings ls owner record).Follows nativeOr w (f w)) :
    (d.branches e.settings.execution.parallelIncludes f).Within e includes nativeOr := by
  cases hparallel : e.settings.execution.parallelIncludes with
  | false => exact hd.bind fun _ w => (hf w).map _
  | true =>
    show (d.together f).Within e includes nativeOr
    induction d with
    | done result workspace =>
      cases result with
      | error e => trivial
      | ok a => exact (hf workspace).map _
    | check _ _ ih => exact ih hd
    | ask request workspace next beside ih _ =>
      obtain ⟨⟨rest, hrest, hbeside⟩, hnext⟩ := hd
      refine ⟨⟨_, .navigations hparallel hrest hls owner record, ?_⟩, fun answer => ih answer (hnext answer)⟩
      exact hbeside.bind fun _ w => (hfollows w).map_unit

/-- What is beside a call is what may go on in a run. By induction on the script, down to the place of the
call. -/
theorem Within.node {d : Script α} {s : Store} {n : Nat} {node : Node} (hd : d.Within e includes nativeOr)
    (hnode : d.node? s n = some node) :
    ∃ rest, e.Meanwhile includes node.request rest ∧ rest.Follows nativeOr node.workspace node.beside := by
  induction d generalizing s n with
  | done _ _ => cases hnode
  | check _ _ ih => exact ih hd hnode
  | ask request workspace next beside ih _ =>
    cases n with
    | zero =>
      rw [node?] at hnode
      obtain rfl := Option.some.inj hnode
      exact hd.1
    | succ n =>
      rw [node?] at hnode
      cases hanswer : (request.call s).1 with
      | error e =>
        rw [hanswer] at hnode
        cases hnode
      | ok answer =>
        rw [hanswer] at hnode
        exact ih answer (hd.2 answer) hnode

end Script

namespace Run

variable {e : Engine} {includes : List Loading} {nativeOr : Bool} {α β : Type}

theorem Scripted.bind {x : Run α} {f : α → Run β} (hx : x.Scripted e includes nativeOr)
    (hf : ∀ a, (f a).Scripted e includes nativeOr) : (x >>= f).Scripted e includes nativeOr := by
  obtain ⟨script, hscript⟩ := hx
  choose next hnext using hf
  refine ⟨fun w => (script w).bind next, fun w => ⟨?_, ?_⟩⟩
  · exact (hscript w).1.bind fun a w' => (hnext a w').1
  · exact (hscript w).2.bind fun a w' => (hnext a w').2

theorem Asks.bind {x : Run α} {f : α → Run β} (hx : x.Asks e includes nativeOr)
    (hf : ∀ a, (f a).Asks e includes nativeOr) : (x >>= f).Asks e includes nativeOr := by
  obtain ⟨script, hscript⟩ := hx
  choose next hnext using hf
  refine ⟨fun w => (script w).bind next, fun w => ⟨?_, ?_, ?_⟩⟩
  · exact (hscript w).1.bind fun a w' => (hnext a w').1
  · exact (hscript w).2.1.bind fun a w' => (hnext a w').2.1
  · exact (hscript w).2.2.bind fun a w' => (hnext a w').2.2

/-- Runs that agree on all connections follow the same scripts. -/
theorem Asks.congr {x y : Run α} (hy : y.Asks e includes nativeOr)
    (h : ∀ s : RunState, s.connection.store.nativeOr = nativeOr → x.run s = y.run s) :
    x.Asks e includes nativeOr := by
  obtain ⟨script, hscript⟩ := hy
  refine ⟨script, fun w => ?_⟩
  obtain ⟨hunchecked, hwithin, hfollows⟩ := hscript w
  exact ⟨hunchecked, hwithin, fun c hc => (h ⟨c, w⟩ hc).trans (hfollows c hc)⟩

theorem asks_pure (a : α) : Asks e includes nativeOr (pure a) :=
  ⟨fun w => .done (.ok a) w, fun _ => ⟨trivial, trivial, fun _ _ => rfl⟩⟩

theorem asks_throw (failure : Failure) : Asks e includes nativeOr (throw failure : Run α) :=
  ⟨fun w => .done (.error failure) w, fun _ => ⟨trivial, trivial, fun _ _ => rfl⟩⟩

/-- A run need not go on from results that its first part never has. -/
theorem Asks.bind_of_post {x : Run α} {f : α → Run β} {post : α → Prop} (hx : x.Asks e includes nativeOr)
    (hpost : ∀ s a, (x.run s).1 = .ok a → post a) (hf : ∀ a, post a → (f a).Asks e includes nativeOr) :
    (x >>= f).Asks e includes nativeOr := by
  classical
  have htotal : ∀ a, (if post a then f a else throw default).Asks e includes nativeOr := by
    intro a
    by_cases ha : post a
    · rw [if_pos ha]
      exact hf a ha
    · rw [if_neg ha]
      exact asks_throw default
  refine (hx.bind htotal).congr fun s _ => ?_
  rw [run_bind_state, run_bind_state]
  rcases hrun : x.run s with ⟨_ | a, s'⟩
  · rfl
  · dsimp only
    rw [if_pos (hpost s a (by rw [hrun]))]

theorem asks_ofExcept (r : Except Failure α) : (ofExcept r).Asks e includes nativeOr := by
  cases r with
  | error failure => exact asks_throw failure
  | ok a => exact asks_pure a

/-- Making instances asks nothing. -/
theorem asks_making (x : Making α) : (making x).Asks e includes nativeOr :=
  ⟨fun w => .done (x.run w).1 (x.run w).2, fun _ => ⟨trivial, trivial, fun _ _ => rfl⟩⟩

theorem asks_changeGraph (change : Graph → Graph) : (changeGraph change).Asks e includes nativeOr :=
  ⟨fun w => .done (.ok ()) { w with graph := change w.graph }, fun _ => ⟨trivial, trivial, fun _ _ => rfl⟩⟩

theorem asks_graph : graph.Asks e includes nativeOr :=
  ⟨fun w => .done (.ok w.graph) w, fun _ => ⟨trivial, trivial, fun _ _ => rfl⟩⟩

theorem asks_nativeOr : Run.nativeOr.Asks e includes nativeOr :=
  ⟨fun w => .done (.ok nativeOr) w, fun _ => ⟨trivial, trivial, fun _ hc => hc ▸ rfl⟩⟩

theorem asks_instanceOf (m : Model) (typeName : String) (d : Document) :
    (instanceOf m typeName d).Asks e includes nativeOr :=
  (asks_ofExcept _).bind fun _ => asks_making _

theorem scripted_checkCancelled : (connected Connected.checkCancelled).Scripted e includes nativeOr := by
  refine ⟨fun w => .check w (.done (.ok ()) w), fun w => ⟨trivial, fun c _ => ?_⟩⟩
  obtain ⟨store, attempts, cancelled, disturbed, waiting⟩ := c
  cases cancelled with
  | true => rfl
  | false => rfl

theorem connected_bind (x : Connected α) (f : α → Connected β) :
    connected (x >>= f) = connected x >>= fun a => connected (f a) := by
  funext s
  show (connected (x >>= f)).run s = (connected x >>= fun a => connected (f a)).run s
  rw [run_bind_state, run_connected, run_connected, run_bind_state]
  rcases x.run s.connection with ⟨_ | _, _⟩ <;> rfl

theorem connected_together (parallel : Bool) (x : Connected α) (y : Connected β) :
    connected (together parallel x y) = together parallel (connected x) (connected y) := by
  funext s
  show (connected (together parallel x y)).run s = (together parallel (connected x) (connected y)).run s
  unfold together
  rw [run_connected, ExceptT.run_mk, ExceptT.run_mk, run_connected]
  rcases x.run s.connection with ⟨_ | _, c⟩
  · dsimp only [Awaiting.waiting]
    split
    · rw [run_connected]
      rcases y.run c with ⟨_ | _, _⟩ <;> rfl
    · rfl
  · dsimp only
    rw [run_connected]
    rcases y.run c with ⟨_ | _, _⟩ <;> rfl

end Run

/-! ## Calls -/

/-- The script of one request. -/
def Script.request (r : Store.Request) (w : Workspace) : Script r.Answer :=
  .ask r w (fun answer => .done (.ok answer) w) (.done (.ok ()) w)

/-- The script of the queries of a disjunction. -/
def Script.queries (parallel : Bool) : List StoreQuery → Workspace → Script (List (List Document))
  | [], w => .done (.ok []) w
  | q :: qs, w =>
    ((request (.runQuery q) w).branches parallel (queries parallel qs)).map fun p => p.1 :: p.2

namespace Connected

variable {e : Engine} {includes : List Loading} {nativeOr : Bool} {α β : Type}

/-- A computation that asks its requests one after the other. -/
def Asks (e : Engine) (includes : List Loading) (nativeOr : Bool) (x : Connected α) : Prop :=
  (Run.connected x).Asks e includes nativeOr

theorem asks_pure (a : α) : Asks e includes nativeOr (pure a) :=
  Run.asks_pure a

theorem asks_ofExcept (r : Except Failure α) : (ofExcept r).Asks e includes nativeOr := by
  cases r with
  | error failure => exact Run.asks_throw failure
  | ok a => exact Run.asks_pure a

theorem Asks.bind {x : Connected α} {f : α → Connected β} (hx : x.Asks e includes nativeOr)
    (hf : ∀ a, (f a).Asks e includes nativeOr) : (x >>= f).Asks e includes nativeOr := by
  unfold Asks
  rw [Run.connected_bind]
  exact Run.Asks.bind hx hf

theorem Asks.congr {x y : Connected α} (hy : y.Asks e includes nativeOr)
    (h : ∀ c : Connection, c.store.nativeOr = nativeOr → x.run c = y.run c) : x.Asks e includes nativeOr := by
  refine Run.Asks.congr hy fun s hs => ?_
  rw [Run.run_connected, Run.run_connected, h s.connection hs]

theorem follows_call (r : Store.Request) (w : Workspace) :
    (Run.connected (call r.call)).Follows nativeOr w (.request r w) := by
  intro c _
  rw [Run.run_connected, Script.request, Script.play]
  rcases (call r.call).run c with ⟨_ | _, c'⟩
  · dsimp only
    split <;> rfl
  · rfl

theorem asks_call (r : Store.Request) : (call r.call).Asks e includes nativeOr :=
  ⟨Script.request r, fun w =>
    ⟨fun _ => trivial, ⟨⟨_, .nothing, fun _ _ => rfl⟩, fun _ => trivial⟩, follows_call r w⟩⟩

theorem asks_getDocument (collection id : String) : (getDocument collection id).Asks e includes nativeOr :=
  asks_call (.getDocument collection id)

theorem asks_runQuery (q : StoreQuery) : (runQuery q).Asks e includes nativeOr :=
  asks_call (.runQuery q)

theorem asks_getByPath (path : String) : (getByPath path).Asks e includes nativeOr :=
  asks_call (.getByPath path)

theorem asks_aggregate (q : StoreQuery) (reduction : StoreReduction) :
    (aggregate q reduction).Asks e includes nativeOr :=
  asks_call (.aggregate q reduction)

/-! ### Disjunctions -/

theorem follows_runQueries (parallel : Bool) (qs : List StoreQuery) (w : Workspace) :
    (Run.connected (runQueries parallel qs)).Follows nativeOr w (.queries parallel qs w) := by
  induction qs generalizing w with
  | nil => exact fun _ _ => rfl
  | cons q qs ih =>
    rw [runQueries, Run.connected_bind, Run.connected_together]
    exact ((follows_call (.runQuery q) w).branches parallel ih).bind fun _ _ _ _ => rfl

end Connected

namespace Script

variable {e : Engine} {includes : List Loading} {nativeOr : Bool}

theorem unchecked_queries (parallel : Bool) (qs : List StoreQuery) (w : Workspace) :
    (queries parallel qs w).Unchecked := by
  induction qs generalizing w with
  | nil => trivial
  | cons q qs ih =>
    have hfirst : (request (.runQuery q) w).Unchecked := fun _ => trivial
    exact (hfirst.branches ih parallel).map _

/-- Queries that differ in their filters alone. -/
def Alternatives (qs : List StoreQuery) : Prop :=
  ∀ q ∈ qs, ∀ q' ∈ qs, ∃ filter, q' = { q with filter := filter }

/-- Beside a query of a disjunction there are the other ones, if they are sent together. -/
theorem within_queries {qs : List StoreQuery} (h : Alternatives qs) (w : Workspace) :
    (queries e.settings.execution.parallelDisjunctions qs w).Within e includes nativeOr := by
  cases hparallel : e.settings.execution.parallelDisjunctions with
  | false =>
    induction qs generalizing w with
    | nil => trivial
    | cons q qs ih =>
      have hrest := ih fun q' hq' q'' hq'' =>
        h q' (List.mem_cons_of_mem q hq') q'' (List.mem_cons_of_mem q hq'')
      refine Within.map ?_ _
      exact ⟨⟨_, .nothing, fun _ _ => rfl⟩, fun _ => (hrest w).map _⟩
  | true =>
    induction qs generalizing w with
    | nil => trivial
    | cons q qs ih =>
      have hrest := ih fun q' hq' q'' hq'' =>
        h q' (List.mem_cons_of_mem q hq') q'' (List.mem_cons_of_mem q hq'')
      have halternatives : ∀ q' ∈ qs, (Store.Request.runQuery q).IsAlternative (.runQuery q') := by
        intro q' hq'
        obtain ⟨filter, rfl⟩ := h q List.mem_cons_self q' (List.mem_cons_of_mem q hq')
        exact ⟨q, filter, rfl, rfl⟩
      refine Within.map ?_ _
      refine ⟨⟨_, .queries hparallel halternatives, ?_⟩, fun _ => (hrest w).map _⟩
      exact (Connected.follows_runQueries true qs w).bind fun _ _ _ _ => rfl

end Script

theorem Connected.asks_runQueries {e : Engine} {includes : List Loading} {nativeOr : Bool}
    {qs : List StoreQuery} (h : Script.Alternatives qs) :
    (runQueries e.settings.execution.parallelDisjunctions qs).Asks e includes nativeOr :=
  ⟨Script.queries e.settings.execution.parallelDisjunctions qs, fun w =>
    ⟨Script.unchecked_queries _ qs w, Script.within_queries h w, follows_runQueries _ qs w⟩⟩

/-! ## Plans -/

section

open Connected

variable {e : Engine} {includes : List Loading} {nativeOr : Bool}

/-- The queries of a source differ in their filters alone. -/
theorem Source.alternatives_of_selection {limits : QueryLimits} {collection : String} {sel : Selection}
    {source : Source} (h : ofSelection limits nativeOr collection sel = .ok source) :
    Script.Alternatives source.queries := by
  have hall : ∀ q ∈ source.queries, ∃ filter, q = queryFor collection sel filter := by
    obtain ⟨-, -, h⟩ := Except.bind_eq_ok.mp h
    split at h
    · cases h
      exact fun q hq => ⟨_, List.mem_singleton.mp hq⟩
    · cases h
      intro q hq
      obtain ⟨clauses, -, rfl⟩ := List.mem_map.mp hq
      exact ⟨_, rfl⟩
  intro q hq q' hq'
  obtain ⟨filter, rfl⟩ := hall q hq
  obtain ⟨filter', rfl⟩ := hall q' hq'
  exact ⟨filter', rfl⟩

theorem Source.asks_fetch {source : Source} (h : Script.Alternatives source.queries)
    (orderBy : List StoreOrder) (window : Window) :
    (source.fetch e.settings.execution.parallelDisjunctions orderBy window).Asks e includes nativeOr := by
  have hdocuments :
      (source.documents e.settings.execution.parallelDisjunctions orderBy).Asks e includes nativeOr := by
    cases source with
    | lookup collectionPath id => exact (asks_getDocument collectionPath id).bind fun _ => asks_pure _
    | query q => exact asks_runQuery q
    | disjunction queries => exact (asks_runQueries h).bind fun _ => asks_pure _
  exact hdocuments.bind fun _ => asks_pure _

theorem ExecutionPlan.asks_run {plan : ExecutionPlan} (h : Script.Alternatives plan.source.queries) :
    (plan.run e.settings.execution.parallelDisjunctions).Asks e includes nativeOr := by
  unfold run
  split
  next reduction q _ _ =>
    refine (asks_aggregate q reduction).bind fun answer => ?_
    exact (asks_ofExcept _).bind fun _ => asks_pure _
  next =>
    refine (Source.asks_fetch h plan.orderBy plan.window).bind fun documents => ?_
    split
    · exact (asks_ofExcept _).bind fun _ => asks_pure _
    · exact asks_pure _

theorem BoundQuery.alternatives_of_plan {limits : QueryLimits} {q : BoundQuery} {plan : ExecutionPlan}
    (h : q.plan limits nativeOr = .ok plan) : Script.Alternatives plan.source.queries := by
  obtain ⟨-, sel, reduction, source, -, hsource, rfl⟩ := plan_eq_ok.mp h
  unfold BoundQuery.source at hsource
  split at hsource
  · cases hsource
    exact fun _ hq => nomatch hq
  · exact Source.alternatives_of_selection hsource

theorem BoundQuery.asks_fetch (q : BoundQuery) : (q.fetch e.settings).Asks e includes nativeOr := by
  have hplanned : (ofExcept (q.plan e.settings.limits nativeOr) >>=
      ExecutionPlan.run e.settings.execution.parallelDisjunctions).Asks e includes nativeOr := by
    cases hplan : q.plan e.settings.limits nativeOr with
    | error failure => exact Run.asks_throw failure
    | ok plan => exact ExecutionPlan.asks_run (alternatives_of_plan hplan)
  exact hplanned.congr fun c hc => hc ▸ rfl

end

/-! ## Navigations -/

namespace Loading

open Run

variable {e : Engine} {includes : List Loading} {nativeOr : Bool}

theorem asks_fetchPaths (paths : List String) :
    (fetchPaths paths).Asks e includes nativeOr := by
  induction paths with
  | nil => exact asks_pure []
  | cons path paths ih =>
    refine Run.Asks.bind (Connected.asks_getByPath path) fun found => ?_
    exact ih.bind fun documents => asks_pure _

theorem asks_fetch (l : Loading) (owner : Document) :
    (l.fetch e.settings owner).Asks e includes nativeOr := by
  unfold fetch
  split
  · refine asks_nativeOr.bind fun nativeOr' => ?_
    dsimp only
    cases hsource : Source.ofSelection e.settings.limits nativeOr' _ l.childSelection with
    | error error => exact asks_throw (Failure.query error)
    | ok source => exact Source.asks_fetch (Source.alternatives_of_selection hsource) _ _
  · exact (asks_fetchPaths _).bind fun documents => asks_pure _

theorem scripted_makeTargets {targetType : String} {loadChildren : InstanceId → Document → Run Unit}
    (h : ∀ target d, (loadChildren target d).Scripted e includes nativeOr) (documents : List Document) :
    (makeTargets e.model targetType loadChildren documents).Scripted e includes nativeOr := by
  induction documents with
  | nil => exact (asks_pure []).scripted
  | cons d ds ih =>
    refine (asks_instanceOf e.model targetType d).scripted.bind fun target => ?_
    refine (h target d).bind fun _ => ?_
    exact ih.bind fun targets => (asks_pure _).scripted

theorem scripted_loadWith {loadChildren : InstanceId → Document → Run Unit}
    (h : ∀ target d, (loadChildren target d).Scripted e includes nativeOr) (l : Loading)
    (owner : InstanceId) (d : Document) :
    (loadWith e.model e.settings l loadChildren owner d).Scripted e includes nativeOr := by
  unfold loadWith
  refine asks_graph.scripted.bind fun g => ?_
  split
  · refine (asks_changeGraph _).scripted.bind fun _ => ?_
    refine scripted_checkCancelled.bind fun _ => ?_
    refine (l.asks_fetch d).scripted.bind fun documents => ?_
    refine (scripted_makeTargets h documents).bind fun targets => ?_
    exact (asks_changeGraph _).scripted
  · exact (asks_pure _).scripted

/-- Navigations are branches of a run, of which all but the first may go on beside it. -/
theorem scripted_branches {x : Run Unit} {ls : List Loading} {owner : InstanceId} {d : Document}
    (hx : x.Scripted e includes nativeOr) (hls : ∀ l ∈ ls, Below includes l)
    (hrest : (loadAll e.model e.settings ls owner d).Scripted e includes nativeOr) :
    Scripted e includes nativeOr
      (together e.settings.execution.parallelIncludes x (loadAll e.model e.settings ls owner d)) := by
  obtain ⟨script, hscript⟩ := hx
  obtain ⟨next, hnext⟩ := hrest
  refine ⟨fun w => (script w).branches e.settings.execution.parallelIncludes next, fun w => ⟨?_, ?_⟩⟩
  · exact (hscript w).1.branches hls (fun w' => (hnext w').1) fun w' => (hnext w').2
  · exact (hscript w).2.branches _ fun w' => (hnext w').2

mutual

/-- Loading a navigation and everything below it follows a script. By recursion on the loadings: a level is
branches, each of which has those after it beside its requests. -/
theorem scripted_load : (l : Loading) → Below includes l → ∀ owner d,
    (load e.model e.settings l owner d).Scripted e includes nativeOr
  | ⟨navigation, targetType, conditions, orderBy, limit, skip, children⟩ => fun hl owner d => by
    rw [load]
    exact scripted_loadWith (scripted_loadAll children fun c hc => hl.child hc) _ owner d

theorem scripted_loadAll : (ls : List Loading) → (∀ l ∈ ls, Below includes l) → ∀ owner d,
    (loadAll e.model e.settings ls owner d).Scripted e includes nativeOr
  | [] => fun _ owner d => by
    rw [loadAll]
    exact (asks_pure ()).scripted
  | l :: ls => fun hls owner d => by
    obtain ⟨hl, hls⟩ := List.forall_mem_cons.mp hls
    rw [loadAll]
    exact (scripted_branches (scripted_load l hl owner d) hls (scripted_loadAll ls hls owner d)).bind
      fun _ => (asks_pure ()).scripted

end

end Loading

/-! ## Queries -/

namespace Engine

open Run

variable {nativeOr : Bool} {e : Engine} {q : BoundQuery}

theorem scripted_valueOf (d : Document) : (e.valueOf q d).Scripted e q.includes nativeOr := by
  unfold valueOf
  refine (asks_ofExcept _).scripted.bind fun item => ?_
  refine (asks_making _).scripted.bind fun value => ?_
  dsimp only
  split
  · exact (Loading.scripted_loadAll q.includes (fun l hl => .here hl) _ d).bind fun _ => (asks_pure _).scripted
  · exact (asks_pure _).scripted

theorem scripted_valuesOf (documents : List Document) :
    (e.valuesOf q documents).Scripted e q.includes nativeOr := by
  induction documents with
  | nil => exact (asks_pure []).scripted
  | cons d ds ih =>
    refine (scripted_valueOf d).bind fun value => ?_
    exact ih.bind fun values => (asks_pure _).scripted

theorem scripted_outcomeOf (documents : List Document) :
    (e.outcomeOf q documents).Scripted e q.includes nativeOr := by
  unfold outcomeOf
  refine (asks_ofExcept _).scripted.bind fun _ => ?_
  refine (scripted_valuesOf documents).bind fun values => ?_
  exact scripted_checkCancelled.bind fun _ => (asks_ofExcept _).scripted

/-- The run of a bound query follows a script: the fetch asks, the values are made one after the other, and
before an element is picked it is looked once more whether the run is cancelled. -/
theorem scripted_executeBound : (e.executeBound q).Scripted e q.includes nativeOr := by
  unfold executeBound
  refine (Run.Asks.scripted q.asks_fetch).bind fun fetched => ?_
  split
  · exact (asks_ofExcept _).scripted.bind fun _ => (asks_pure _).scripted
  · exact scripted_outcomeOf _

end Engine

/-- The navigations that a template loads, once it is bound. -/
def Template.loadings (m : Model) (bindings : Bindings) (t : Template) : List Loading :=
  match t.bind m bindings with
  | .ok q => q.includes
  | .error _ => []

/-- The run of a template follows a script, for every template. One that cannot be bound has ended before it
asks. -/
theorem Engine.scripted_execute (e : Engine) (t : Template) (bindings : Bindings) (nativeOr : Bool) :
    (e.execute t bindings).Scripted e (t.loadings e.model bindings) nativeOr := by
  unfold execute Template.loadings
  cases t.bind e.model bindings with
  | error f => exact (Run.asks_throw (Failure.query f)).scripted
  | ok q =>
    show Run.Scripted e q.includes nativeOr (pure q >>= e.executeBound)
    rw [pure_bind]
    exact scripted_executeBound

end DocumentQuery
