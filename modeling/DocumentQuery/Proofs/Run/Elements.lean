import DocumentQuery.Proofs.Plan.Elements
import DocumentQuery.Proofs.Run.Sending

/-!
# Runs for one element

A run for one element makes the value of the document its query leaves, and then picks it. Two documents
where a single one is asked for are refused before any value is made, and no document is a failure or null,
as the query says (`Engine.executeBound_element`).

That the failures tell the number of documents takes the rest of the run, too: nothing that is done for a
document fails in one of these ways, whatever is loaded for it (`Engine.steady_valueOf`). And the
connection is as calm after it as before, so the run is not cancelled at the end.

Being calm is an invariant, and what it needs is one property of calls: on a calm connection a call fails as the
store fails, and the connection is calm afterwards. All that comes between calls makes values, which fails
because of faults of documents or models. So the failures that count elements can come from the end of the run
alone.

## Main definitions

* `Failure.OfElements` — the failures that tell how many elements there are
* `Run.Steady` — runs that keep their connection calm and do not fail so
-/

namespace DocumentQuery

open DocumentQuery.Except (FailsOnly failsOnly_ok failsOnly_error)

/-- The failures that tell how many elements there are: none, more than one, or no document of an identity. -/
def Failure.OfElements : Failure → Prop
  | .emptySequence | .moreThanOneElement | .notFound _ => True
  | _ => False

theorem Failure.IsFault.not_ofElements {e : Failure} (h : e.IsFault) : ¬ e.OfElements := by
  cases e <;> first | exact id | exact h.elim

/-- Connections that are not cancelled and that nothing disturbs. A run on one of them fails for reasons of
its own. -/
structure Connection.Calm (c : Connection) : Prop where
  /-- The caller has not cancelled. -/
  running : c.cancelled = false
  /-- No call is disturbed, neither one of those made nor one to come. -/
  undisturbed : c.disturbed = none

theorem Connection.Calm.giveUp {c : Connection} (h : c.Calm) : (Awaiting.giveUp c).Calm :=
  ⟨h.running, h.undisturbed⟩

/-! ## Calls -/

namespace Connected

variable {α : Type}

/-- A computation that keeps a connection calm and does not fail because of the number of elements. -/
def Steady (x : Connected α) : Prop :=
  Respects Connection.Calm (fun e => ¬ e.OfElements) x fun _ => True

theorem steady_call (request : Store.Call α) : (call request).Steady := by
  intro c hc
  obtain ⟨hdisturbed, hcases⟩ := call_cases c request
  rcases hcases with ⟨hwhy, -, -⟩ | ⟨hresult, -, hkept⟩
  · rcases hwhy with hcancelled | hdisturbance
    · exact nomatch hc.running.symm.trans hcancelled
    · exact absurd hc.undisturbed hdisturbance
  · refine ⟨⟨(hkept hc.undisturbed).1.trans hc.running, hdisturbed.trans hc.undisturbed⟩,
      fun _ _ => trivial, fun e he => ?_⟩
    rw [hresult] at he
    cases hanswer : (request c.store).1 with
    | ok a => exact nomatch (hanswer ▸ he)
    | error error =>
      rw [hanswer] at he
      cases he
      exact id

theorem steady_checkCancelled : checkCancelled.Steady := by
  refine Respects.get_bind fun c hc => ?_
  rw [hc.running]
  exact ends_pure _

theorem steady_getDocument (collection id : String) : (getDocument collection id).Steady :=
  steady_call _

theorem steady_runQuery (q : StoreQuery) : (runQuery q).Steady :=
  steady_call _

theorem steady_getByPath (path : String) : (getByPath path).Steady :=
  steady_call _

end Connected

/-- A calm connection stays calm when single documents are asked for, and faults do not tell how many elements
there are. -/
theorem Connection.kept_calm : Connection.Kept Connection.Calm (fun e => ¬ e.OfElements) where
  giveUp _ h := h.giveUp
  checkCancelled := Connected.steady_checkCancelled
  getDocument := Connected.steady_getDocument
  getByPath := Connected.steady_getByPath
  fault _ h := h.not_ofElements

/-! ## Navigations -/

namespace Run

variable {α : Type}

/-- A run that keeps its connection calm and does not fail because of the number of elements. -/
def Steady (x : Run α) : Prop :=
  Respects (fun s => s.connection.Calm) (fun e => ¬ e.OfElements) x fun _ => True

end Run

open Run in
/-- Children are fetched by a query, which may be refused for its size but never for the number of its
documents. -/
theorem Loading.steady_fetchChildren {settings : Settings} (l : Loading) (owner : Document)
    (subcollection : String) : (l.fetchChildren settings owner subcollection).Steady := by
  have hnative : nativeOr.Ends Connection.Calm (fun e => ¬ e.OfElements) :=
    Respects.get_bind fun _ _ => ends_pure _
  have hrefused {r : Except QueryError Source} :
      FailsOnly (fun e => ¬ e.OfElements) (r.mapError Failure.query) := by
    cases r with
    | error e => exact failsOnly_error id
    | ok source => exact failsOnly_ok source
  show (l.fetchChildren settings owner subcollection).Ends Connection.Calm (fun e => ¬ e.OfElements)
  unfold fetchChildren
  refine hnative.bind fun nativeOr => ?_
  refine (ends_ofExcept hrefused).bind fun source => ?_
  exact ends_connected <|
    source.ends_fetch Connection.kept_calm (fun q _ => Connected.steady_runQuery q) _ _ _

/-! ## Elements -/

/-- The connection to a store after the documents of a query are fetched. The values of the documents are made
on this connection, so navigations see the calls that were made before. -/
def BoundQuery.fetched (settings : Settings) (s : Store) (q : BoundQuery) : Connection :=
  ((q.fetch settings).run (.ofStore s)).2

namespace Engine

open Run

variable {e : Engine} {q : BoundQuery} {s : Store}

/-- The value of a document does not fail because of the number of elements. -/
theorem steady_valueOf (d : Document) : (e.valueOf q d).Steady :=
  ends_valueOf Connection.kept_calm (fun l _ => l.steady_fetchChildren) d

theorem steady_valuesOf (documents : List Document) : (e.valuesOf q documents).Steady :=
  ends_valuesOf Connection.kept_calm (fun l _ => l.steady_fetchChildren) documents

/-- A connection that is calm is not cancelled. -/
theorem run_checkCancelled {s : RunState} (hs : s.connection.Calm) :
    (connected Connected.checkCancelled).run s = (.ok (), s) := by
  obtain ⟨⟨store, attempts, cancelled, disturbed⟩, w⟩ := s
  cases hs.running
  rfl

/-- On a calm connection, the values of all documents are made before the element is picked. The documents are
counted before that, and whether the run is cancelled is looked at in between. -/
theorem result_outcomeOf {documents : List Document} {s : RunState} (hs : s.connection.Calm)
    (hcheck : q.checkSingle documents = .ok ()) :
    ((e.outcomeOf q documents).run s).1 = ((e.valuesOf q documents).run s).1 >>= q.pick := by
  have hcalm := (steady_valuesOf (e := e) (q := q) documents s hs).1
  unfold outcomeOf
  rw [run_bind_state, run_ofExcept, hcheck]
  dsimp only
  rw [run_bind_state]
  rcases hrun : (e.valuesOf q documents).run s with ⟨_ | values, s'⟩
  · rfl
  · rw [hrun] at hcalm
    dsimp only
    rw [run_bind_state, run_checkCancelled hcalm]
    dsimp only
    rw [run_ofExcept]
    rfl

theorem checkSingle_of_length_le {documents : List Document} (h : documents.length ≤ 1) :
    q.checkSingle documents = .ok () := by
  unfold BoundQuery.checkSingle
  split
  · exact if_neg (Nat.not_lt.mpr h)
  · rfl

/-- Without documents, the result is null or the failure to find any. Nothing is made and nothing is loaded. -/
theorem result_outcomeOf_nil {s : RunState} (hs : s.connection.Calm)
    (hone : q.cardinality ≠ .sequence) : ((e.outcomeOf q []).run s).1 =
      if q.allowsNone then .ok (.single .null) else .error q.missing := by
  have hcheck : q.checkSingle [] = .ok () := checkSingle_of_length_le (Nat.zero_le 1)
  have hpick : q.pick [] = if q.allowsNone then .ok (.single .null) else .error q.missing := by
    unfold BoundQuery.pick BoundQuery.element?
    rw [if_neg hone]
    cases q.cardinality <;> rfl
  rw [result_outcomeOf hs hcheck, ← hpick]
  rfl

/-- Several documents where a single one is asked for are refused, before any value is made of them. -/
theorem result_outcomeOf_of_many {documents : List Document} {orDefault : Bool} (s : RunState)
    (hsingle : q.cardinality = .single orDefault) (h : 1 < documents.length) :
    ((e.outcomeOf q documents).run s).1 = .error .moreThanOneElement := by
  have hcheck : q.checkSingle documents = .error .moreThanOneElement := by
    simp only [BoundQuery.checkSingle, hsingle, if_pos h]
  unfold outcomeOf
  rw [run_bind_state, run_ofExcept, hcheck]

/-- A document that is alone is returned as its value, whether the first, the last or a single one was asked
for. -/
theorem result_outcomeOf_singleton {s : RunState} (hs : s.connection.Calm)
    (hone : q.cardinality ≠ .sequence) (d : Document) :
    ((e.outcomeOf q [d]).run s).1 = ((e.valueOf q d).run s).1.map .single := by
  have hpick : ∀ value, q.pick [value] = .ok (.single value) := by
    intro value
    unfold BoundQuery.pick BoundQuery.element?
    rw [if_neg hone]
    cases q.cardinality <;> rfl
  have hcheck : q.checkSingle [d] = .ok () := checkSingle_of_length_le (Nat.le_refl 1)
  rw [result_outcomeOf hs hcheck, valuesOf, run_bind_state]
  rcases (e.valueOf q d).run s with ⟨_ | value, s'⟩
  · rfl
  · exact hpick value

/-- One document or none does not make more than one element. For one document this takes the whole run of its
value, with all that is loaded for it, which never fails so. -/
theorem result_outcomeOf_ne {documents : List Document} {s : RunState} (hs : s.connection.Calm)
    (hone : q.cardinality ≠ .sequence) (h : documents.length ≤ 1) :
    ((e.outcomeOf q documents).run s).1 ≠ .error .moreThanOneElement := by
  intro hmore
  match documents, h with
  | [], _ =>
    rw [result_outcomeOf_nil hs hone] at hmore
    unfold BoundQuery.missing at hmore
    split at hmore
    · exact nomatch hmore
    · split at hmore <;> exact nomatch hmore
  | [d], _ =>
    rw [result_outcomeOf_singleton hs hone] at hmore
    cases hvalue : ((e.valueOf q d).run s).1 with
    | ok value =>
      rw [hvalue] at hmore
      exact nomatch hmore
    | error failure =>
      rw [hvalue] at hmore
      cases hmore
      exact (steady_valueOf d s hs).2.2 _ hvalue trivial

/-- A run of a query that brings documents goes on with them where the fetch has left the connection. That the
query brings documents is said of the contents of the store; the connection is fresh and stays calm. -/
theorem run_executeBound {documents : List Document}
    (h : q.outcome e.settings.limits s = .ok (.documents documents)) (plans : PlanCache) :
    (q.fetched e.settings s).Calm ∧ (e.executeBound q).run (start (.ofStore s) plans) =
      (e.outcomeOf q documents).run (start (q.fetched e.settings s) plans) := by
  obtain ⟨c, hserves, hfetch⟩ := q.fetch_gives e.settings _ (Connection.ofStore_serves s)
  rw [h] at hfetch
  have hfetched : q.fetched e.settings s = c := congrArg Prod.snd hfetch
  refine ⟨hfetched ▸ ⟨hserves.running, hserves.undisturbed⟩, ?_⟩
  rw [hfetched, executeBound, run_bind_state, run_connected, start, hfetch]
  rfl

/-- A query for one element returns the element, or tells how many there are. A list of documents that is cut
by the store and by the window, both narrowed for the element, leaves the head, the first two or the last of
what the window alone keeps, and these are the documents that a planned query brings of its page. A run that
is brought them of a page returns its first or last document, or a single one that is alone there; there is
more than one element exactly if there is on the page; and for an empty page the result is null where the
query allows for it, or the failure to find the document that is looked up, or any.

The first part is about every window and every list that is no longer than a count can be. The second part
needs that the store can answer the query (`BoundQuery.Answerable`): it is well-formed, only an ordered query
is cut to its last documents, and where the parts of a disjunction are fetched apart the window can be applied
to the parts. The third part starts from what was brought, and asks for one element only; that the store is
fresh is why the failures are those of the elements. -/
theorem executeBound_element :
    (∀ (skip limit limitToLast : Option Nat) (c : Cardinality) (ds : List Document),
      ds.length ≤ Number.maxCount →
        ((Window.ofCounts skip limit limitToLast).narrow c).apply
            (((Window.ofCounts skip limit limitToLast).narrow c).sent ds) =
          c.keeps ((Window.ofCounts skip limit limitToLast).apply ds)) ∧
    (∀ (limits : QueryLimits) (q : BoundQuery) (s : Store) (plan : ExecutionPlan),
      q.aggregation = none → q.plan limits s.nativeOr = .ok plan →
        BoundQuery.Answerable s q q.selection →
          q.outcome limits s = .ok (.documents (q.cardinality.keeps (q.page s)))) ∧
    ∀ (e : Engine) (q : BoundQuery) (s : Store) (plans : PlanCache) (page : List Document),
      q.cardinality ≠ .sequence →
      q.outcome e.settings.limits s = .ok (.documents (q.cardinality.keeps page)) →
        (((e.executeBound q).run (start (.ofStore s) plans)).1 = .error .moreThanOneElement ↔
          (∃ orDefault, q.cardinality = .single orDefault) ∧ 2 ≤ page.length) ∧
        (page = [] → ((e.executeBound q).run (start (.ofStore s) plans)).1 =
          if q.allowsNone then .ok (.single .null)
          else .error (match q.access with
            | .document id => .notFound (Document.pathOf q.collection id)
            | .collection _ => .emptySequence)) ∧
        ∀ d, q.cardinality.element? page = some d →
          ((e.executeBound q).run (start (.ofStore s) plans)).1 =
            ((e.valueOf q d).run (start (q.fetched e.settings s) plans)).1.map .single := by
  refine ⟨fun skip limit limitToLast c ds h => Window.apply_narrow_sent skip limit limitToLast c h,
    fun limits q s plan => BoundQuery.outcome_of_plan, fun e q s plans page hone houtcome => ?_⟩
  obtain ⟨hcalm, hrun⟩ := run_executeBound houtcome plans
  rw [hrun]
  refine ⟨?_, fun hpage => ?_, fun d hd => ?_⟩
  · constructor
    · intro hmore
      -- on a calm connection no other step fails like this
      by_contra hfew
      exact result_outcomeOf_ne hcalm hone (Cardinality.length_keeps_le_one hone hfew) hmore
    · rintro ⟨⟨orDefault, hsingle⟩, hmany⟩
      refine result_outcomeOf_of_many _ hsingle ?_
      rw [hsingle, Cardinality.keeps, List.length_take]
      omega
  · have hnone : q.cardinality.keeps page = [] := by
      rw [hpage]
      cases q.cardinality <;> rfl
    rw [hnone]
    exact result_outcomeOf_nil hcalm hone
  · rw [Cardinality.keeps_of_element? hd]
    exact result_outcomeOf_singleton hcalm hone d

/-- The query for an element of the notes behind the first `n`. -/
def noteBehind (n : Nat) (c : Cardinality) : BoundQuery :=
  { BoundQuery.notes with skip := some n, cardinality := c }

theorem page_noteBehind (n : Nat) (c : Cardinality) :
    (noteBehind n c).page (Store.notes true) =
      (Window.ofCounts (some n) none none).apply ((Store.notes true).documents "notes") := by
  have hsort : Document.sort (noteBehind n c).selection.orderBy
      (((Store.notes true).documents "notes").filter (noteBehind n c).selection.admits) =
      (Store.notes true).documents "notes" :=
    Document.sort_of_sorted ((Store.notes_wellFormed true).documents_sorted "notes")
  exact congrArg (Window.ofCounts (some n) none none).apply hsort

/-- The query for the rank of the last note behind the first. -/
def lastRank : BoundQuery :=
  { noteBehind 1 (.last false) with projection := .field ⟨some "Rank", "rank", .scalar .int⟩ }

/-- Of three notes two are left behind the first: the last of them is returned, here by its rank, and it is no
single one. Behind the third there is none, and the first or null is null; and a fourth note is not found. -/
theorem executeBound_element_notes :
    (((⟨.notes, .standard⟩ : Engine).executeBound lastRank).run
      (start (.ofStore (Store.notes true)) default)).1 = .ok (.single (.int 3)) ∧
    (((⟨.notes, .standard⟩ : Engine).executeBound (noteBehind 1 (.single false))).run
      (start (.ofStore (Store.notes true)) default)).1 = .error .moreThanOneElement ∧
    (((⟨.notes, .standard⟩ : Engine).executeBound (noteBehind 3 (.first true))).run
      (start (.ofStore (Store.notes true)) default)).1 = .ok (.single .null) ∧
    (((⟨.notes, .standard⟩ : Engine).executeBound
        { BoundQuery.notes with access := .document "d", cardinality := .last false }).run
      (start (.ofStore (Store.notes true)) default)).1 = .error (.notFound "notes/d") := by
  have hnotes := Store.notes_wellFormed true
  obtain ⟨-, houtcome, helement⟩ := executeBound_element
  refine ⟨?_, ?_, ?_, ?_⟩
  · have hlast := houtcome .standard lastRank (Store.notes true) _ rfl rfl
      ⟨hnotes, by decide, by decide, by decide⟩
    have hpage : lastRank.page (Store.notes true) = _ := page_noteBehind 1 (.last false)
    rw [hpage] at hlast
    exact (helement ⟨.notes, .standard⟩ _ _ default _ (by decide) hlast).2.2 _ rfl
  · have hbehind := houtcome .standard (noteBehind 1 (.single false)) (Store.notes true) _ rfl rfl
      ⟨hnotes, by decide, by decide, by decide⟩
    rw [page_noteBehind] at hbehind
    exact (helement ⟨.notes, .standard⟩ _ _ default _ (by decide) hbehind).1.mpr ⟨⟨false, rfl⟩, by decide⟩
  · have hbehind := houtcome .standard (noteBehind 3 (.first true)) (Store.notes true) _ rfl rfl
      ⟨hnotes, by decide, by decide, by decide⟩
    rw [page_noteBehind] at hbehind
    exact (helement ⟨.notes, .standard⟩ _ _ default _ (by decide) hbehind).2.1 (by decide)
  · have hmissing := houtcome .standard
      { BoundQuery.notes with access := .document "d", cardinality := .last false } (Store.notes true) _
      rfl rfl ⟨hnotes, by decide, by decide, by decide⟩
    exact (helement ⟨.notes, .standard⟩ _ _ default _ (by decide) hmissing).2.1 rfl

end Engine

end DocumentQuery
