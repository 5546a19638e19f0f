import DocumentQuery.Proofs.Plan.Conformance
import DocumentQuery.Proofs.Run.Faults
import DocumentQuery.Run.Engine

/-!
# What runs keep of their connection

Between the documents of a query and its values a run comes back to its connection again and again: for every
document it may load navigations, for these it looks whether the caller has cancelled and fetches targets, and
for each target it starts over. What is true of the connection all the way is an invariant, and an invariant
has nothing to do with which instances are made in between.

So the way through a run is gone once, for any invariant and any failures that are allowed. What is asked of
them for it (`Connection.Kept`) is that looking whether the run is cancelled and asking for one document keep
the invariant, and so does giving up what is waited for, which is what happens to the branches beside one that
fails. The failures that are allowed have to include faults of documents and models, because values are made
everywhere.

Queries are not among these. Whether one may be sent is what an invariant can be about, so it is a hypothesis
of its own, and it is asked of those queries only that are sent: of the queries of a source
(`Source.ends_fetch`), and of the children of the navigations that the run comes to (`Loading.ends_loadAll`,
`Engine.ends_valuesOf`).

## Main definitions

* `Connection.Kept` — what stays true of a connection wherever a run looks at it
* `Connected.Ends`, `Run.Ends` — what keeps it and fails only in given ways
-/

namespace DocumentQuery

open DocumentQuery.Except (FailsOnly)

/-- What stays true of a connection when a run looks at it, with the failures that this allows. -/
structure Connection.Kept (inv : Connection → Prop) (fails : Failure → Prop) : Prop where
  /-- It does not depend on what is waited for. -/
  giveUp : ∀ c, inv c → inv (Awaiting.giveUp c)
  /-- It stays true when it is looked whether the run is cancelled. -/
  checkCancelled : Respects inv fails Connected.checkCancelled fun _ => True
  /-- It stays true when a document is asked for by its identity, whether or not there is one. -/
  getDocument : ∀ collection id, Respects inv fails (Connected.getDocument collection id) fun _ => True
  /-- It stays true when a document is asked for by its path. -/
  getByPath : ∀ path, Respects inv fails (Connected.getByPath path) fun _ => True
  /-- The faults of documents and models are allowed. -/
  fault : ∀ e, e.IsFault → fails e

/-! ## Sources -/

namespace Connected

variable {inv : Connection → Prop} {fails : Failure → Prop} {α β : Type}

/-- A computation that keeps something true of the connection and fails only in given ways. -/
def Ends (inv : Connection → Prop) (fails : Failure → Prop) (x : Connected α) : Prop :=
  Respects inv fails x fun _ => True

theorem ends_pure (a : α) : Ends inv fails (pure a) :=
  Respects.pure trivial

theorem Ends.bind {x : Connected α} {f : α → Connected β} (hx : x.Ends inv fails)
    (hf : ∀ a, (f a).Ends inv fails) : (x >>= f).Ends inv fails :=
  Respects.bind hx fun a _ => hf a

/-- A result that no call is made for. -/
theorem ends_ofExcept {r : Except Failure α} (h : FailsOnly fails r) : (ofExcept r).Ends inv fails := by
  cases r with
  | error e => exact Respects.throw (h e rfl) _
  | ok a => exact ends_pure a

theorem ends_runQueries (kept : Connection.Kept inv fails) (parallel : Bool) {queries : List StoreQuery}
    (h : ∀ q ∈ queries, (runQuery q).Ends inv fails) : (runQueries parallel queries).Ends inv fails := by
  induction queries with
  | nil => exact ends_pure []
  | cons q queries ih =>
    obtain ⟨hq, hqueries⟩ := List.forall_mem_cons.mp h
    have htogether : Ends inv fails (together parallel (runQuery q) (runQueries parallel queries)) :=
      Respects.branches parallel kept.giveUp hq (ih hqueries) fun _ _ _ _ => trivial
    exact htogether.bind fun _ => ends_pure _

end Connected

/-- The calls of a source are those of its queries. So all that has to be known of a source is what its queries
do. -/
theorem Source.ends_fetch {inv : Connection → Prop} {fails : Failure → Prop}
    (kept : Connection.Kept inv fails) {source : Source}
    (h : ∀ q ∈ source.queries, (Connected.runQuery q).Ends inv fails) (orderBy : List StoreOrder)
    (window : Window) (parallel : Bool) : (source.fetch parallel orderBy window).Ends inv fails := by
  have hdocuments : (source.documents parallel orderBy).Ends inv fails := by
    cases source with
    | lookup collectionPath id =>
      have hlookup : (Connected.getDocument collectionPath id).Ends inv fails :=
        kept.getDocument collectionPath id
      exact hlookup.bind fun _ => Connected.ends_pure _
    | query q => exact h q List.mem_cons_self
    | disjunction queries =>
      exact (Connected.ends_runQueries kept parallel h).bind fun _ => Connected.ends_pure _
  exact hdocuments.bind fun _ => Connected.ends_pure _

/-! ## Runs -/

namespace Run

variable {inv : Connection → Prop} {fails : Failure → Prop} {α β : Type}

/-- A run that keeps something true of its connection and fails only in given ways. -/
def Ends (inv : Connection → Prop) (fails : Failure → Prop) (x : Run α) : Prop :=
  Respects (fun s => inv s.connection) fails x fun _ => True

theorem ends_pure (a : α) : Ends inv fails (pure a) :=
  Respects.pure trivial

theorem Ends.bind {x : Run α} {f : α → Run β} (hx : x.Ends inv fails) (hf : ∀ a, (f a).Ends inv fails) :
    (x >>= f).Ends inv fails :=
  Respects.bind hx fun a _ => hf a

theorem Ends.together (kept : Connection.Kept inv fails) (parallel : Bool) {x : Run α} {y : Run β}
    (hx : x.Ends inv fails) (hy : y.Ends inv fails) :
    Ends inv fails (DocumentQuery.together parallel x y) :=
  Respects.branches parallel (fun s => kept.giveUp s.connection) hx hy fun _ _ _ _ => trivial

theorem ends_connected {x : Connected α} (hx : x.Ends inv fails) : (connected x).Ends inv fails :=
  fun s hs => hx s.connection hs

theorem ends_ofExcept {r : Except Failure α} (h : FailsOnly fails r) : (ofExcept r).Ends inv fails := by
  cases r with
  | error e => exact Respects.throw (h e rfl) _
  | ok a => exact ends_pure a

theorem ends_ofFault (kept : Connection.Kept inv fails) {r : Except Failure α}
    (h : FailsOnly Failure.IsFault r) : (ofExcept r).Ends inv fails :=
  ends_ofExcept fun e he => kept.fault e (h e he)

/-- Making instances calls nothing, and it fails because of faults. -/
theorem ends_making (kept : Connection.Kept inv fails) {x : Making α} (hx : x.Faults) :
    (making x).Ends inv fails := by
  intro s hs
  obtain ⟨-, -, hfails⟩ := hx s.workspace trivial
  exact ⟨hs, fun _ _ => trivial, fun e he => kept.fault e (hfails e he)⟩

theorem ends_graph : graph.Ends inv fails :=
  Respects.get_bind fun _ _ => ends_pure _

theorem ends_changeGraph (change : Graph → Graph) : (changeGraph change).Ends inv fails :=
  Respects.modify (fun _ hs => hs) trivial

theorem ends_instanceOf (kept : Connection.Kept inv fails) (m : Model) (typeName : String) (d : Document) :
    (instanceOf m typeName d).Ends inv fails :=
  (ends_ofFault kept (d.shapeEntity_failsOnly m typeName)).bind fun item =>
    ends_making kept (Making.faults_item m typeName item)

end Run

/-! ## Navigations -/

namespace Loading

open Run

variable {inv : Connection → Prop} {fails : Failure → Prop} {settings : Settings} {m : Model}

theorem ends_fetchPaths (kept : Connection.Kept inv fails) (paths : List String) :
    (fetchPaths paths).Ends inv fails := by
  induction paths with
  | nil => exact ends_pure []
  | cons path paths ih =>
    refine (ends_connected (kept.getByPath path)).bind fun found => ?_
    exact ih.bind fun documents => ends_pure _

theorem ends_fetch (kept : Connection.Kept inv fails) {l : Loading} {owner : Document}
    (h : ∀ subcollection, (l.fetchChildren settings owner subcollection).Ends inv fails) :
    (l.fetch settings owner).Ends inv fails := by
  unfold fetch
  split
  · exact h _
  · exact (ends_fetchPaths kept _).bind fun documents => ends_pure _

theorem ends_makeTargets (kept : Connection.Kept inv fails) {targetType : String}
    {loadChildren : InstanceId → Document → Run Unit}
    (h : ∀ target d, (loadChildren target d).Ends inv fails) (documents : List Document) :
    (makeTargets m targetType loadChildren documents).Ends inv fails := by
  induction documents with
  | nil => exact ends_pure []
  | cons d ds ih =>
    refine (ends_instanceOf kept m targetType d).bind fun target => ?_
    refine (h target d).bind fun _ => ?_
    exact ih.bind fun targets => ends_pure _

theorem ends_loadWith (kept : Connection.Kept inv fails) {l : Loading}
    {loadChildren : InstanceId → Document → Run Unit}
    (h : ∀ owner subcollection, (l.fetchChildren settings owner subcollection).Ends inv fails)
    (hchildren : ∀ target d, (loadChildren target d).Ends inv fails) (owner : InstanceId) (d : Document) :
    (loadWith m settings l loadChildren owner d).Ends inv fails := by
  unfold loadWith
  refine ends_graph.bind fun g => ?_
  split
  · refine (ends_changeGraph _).bind fun _ => ?_
    refine (ends_connected kept.checkCancelled).bind fun _ => ?_
    refine (ends_fetch kept (h d)).bind fun documents => ?_
    refine (ends_makeTargets kept hchildren documents).bind fun targets => ?_
    exact ends_changeGraph _
  · exact ends_pure _

mutual

/-- Loading a navigation keeps what fetching the children keeps, its own and those of everything below it. By
recursion on the tree of loadings: a level is branches, which are carried out one after the other or
together. -/
theorem ends_load (kept : Connection.Kept inv fails) : (l : Loading) →
    (∀ b, Below [l] b → ∀ owner subcollection, (b.fetchChildren settings owner subcollection).Ends inv fails) →
      ∀ owner d, (load m settings l owner d).Ends inv fails
  | ⟨navigation, targetType, conditions, orderBy, limit, skip, children⟩ => fun h owner d => by
    rw [load]
    have hself : Below [⟨navigation, targetType, conditions, orderBy, limit, skip, children⟩]
        ⟨navigation, targetType, conditions, orderBy, limit, skip, children⟩ :=
      .here List.mem_cons_self
    exact ends_loadWith kept (h _ hself) (fun target d' => ends_loadAll kept children
      (fun b hb => h b (hb.trans fun c hc => hself.child hc)) target d') owner d

theorem ends_loadAll (kept : Connection.Kept inv fails) : (ls : List Loading) →
    (∀ b, Below ls b → ∀ owner subcollection, (b.fetchChildren settings owner subcollection).Ends inv fails) →
      ∀ owner d, (loadAll m settings ls owner d).Ends inv fails
  | [] => fun _ owner d => by
    rw [loadAll]
    exact ends_pure ()
  | l :: ls => fun h owner d => by
    rw [loadAll]
    have hfirst := ends_load kept l
      (fun b hb => h b (hb.trans fun c hc => .here (List.mem_singleton.mp hc ▸ List.mem_cons_self))) owner d
    have hrest := ends_loadAll kept ls
      (fun b hb => h b (hb.trans fun c hc => .here (List.mem_cons_of_mem l hc))) owner d
    exact (hfirst.together kept _ hrest).bind fun _ => ends_pure ()

end

end Loading

/-! ## Values -/

namespace Engine

open Run

variable {inv : Connection → Prop} {fails : Failure → Prop} {e : Engine} {q : BoundQuery}

theorem ends_valueOf (kept : Connection.Kept inv fails) (h : ∀ l, Loading.Below q.includes l →
      ∀ owner subcollection, (l.fetchChildren e.settings owner subcollection).Ends inv fails)
    (d : Document) : (e.valueOf q d).Ends inv fails := by
  unfold valueOf
  refine (ends_ofFault kept (q.projection.shape_failsOnly e.model q.entityType d)).bind fun item => ?_
  refine (ends_making kept (Making.faults_projection e.model q.entityType item _)).bind fun value => ?_
  dsimp only
  split
  · exact (Loading.ends_loadAll kept q.includes h _ d).bind fun _ => ends_pure _
  · exact ends_pure _

theorem ends_valuesOf (kept : Connection.Kept inv fails) (h : ∀ l, Loading.Below q.includes l →
      ∀ owner subcollection, (l.fetchChildren e.settings owner subcollection).Ends inv fails)
    (documents : List Document) : (e.valuesOf q documents).Ends inv fails := by
  induction documents with
  | nil => exact ends_pure []
  | cons d ds ih =>
    refine (ends_valueOf kept h d).bind fun value => ?_
    exact ih.bind fun values => ends_pure _

end Engine

end DocumentQuery
