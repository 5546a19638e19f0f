import DocumentQuery.Proofs.Predicate.Filtering
import DocumentQuery.Proofs.Run.Identity
import DocumentQuery.Proofs.Run.Scripted

/-!
# Runs that are interrupted

Two things may happen at a call: it fails before it reaches the store, because the caller cancels or the
store is out of reach, or the caller cancels and the call completes. The healthy run makes the calls of a
script, and the interrupted one makes the same calls up to there.

After a call that fails, the run has this failure (`Engine.execute_of_failing`). If the call fails at once,
no other is made. If the run is left waiting for the failure, the branches that were started together with
the call go on meanwhile, and no others. These are named: queries of the same disjunction, and navigations
beside the one that the call belongs to (`Engine.Meanwhile`). Each of the two is carried out in parallel only
if a setting says so, and without the settings nothing goes on.

After a cancelled call that completes, the run fails as well, with one exception
(`Engine.execute_of_cancel`): a reduction has nothing to do after its last call, and no run looks whether it
is cancelled between its last call and a value. So a reduction that is cancelled during its last call
succeeds as if nothing had happened.

Both statements name the script of the healthy run first and then speak of its calls by number, so they hold
of every call that the run would make and of none that it would not. What a disturbance does to the run is
read off the script: `Script.play` carries a script out on any connection, and a run follows its script there
as well.
-/

namespace DocumentQuery

/-! ## Runs of reductions -/

theorem Aggregation.prepare_ne_documents {a : Aggregation} {s sel : Selection} :
    a.prepare s ≠ .ok (sel, .documents) := by
  intro h
  unfold prepare summation client at h
  repeat' split at h
  all_goals cases h

namespace BoundQuery

variable {limits : QueryLimits} {s : Store} {q : BoundQuery} {fetched : Fetched}

/-- The result of a query with a reduction is a value. -/
theorem exists_value_of_outcome (hagg : q.aggregation ≠ none) (h : q.outcome limits s = .ok fetched) :
    ∃ value, fetched = .value value := by
  obtain ⟨plan, hplan, houtcome⟩ := outcome_eq_ok.mp h
  obtain ⟨-, sel, reduction, source, hreduction, -, rfl⟩ := plan_eq_ok.mp hplan
  have hclient : ∀ source orderBy window kind path nullable,
      ExecutionPlan.outcome s ⟨source, orderBy, window, .client kind path nullable⟩ = .ok fetched →
        ∃ value, fetched = .value value := by
    intro source orderBy window kind path nullable h
    obtain ⟨documents, -, h⟩ := Except.bind_eq_ok.mp h
    obtain ⟨value, -, rfl⟩ := Except.map_eq_ok.mp h
    exact ⟨value, rfl⟩
  cases reduction with
  | documents =>
    obtain ⟨a, ha⟩ := Option.ne_none_iff_exists'.mp hagg
    rw [BoundQuery.reduction, ha] at hreduction
    exact absurd hreduction Aggregation.prepare_ne_documents
  | client kind path nullable =>
    have hsame : (Reduction.client kind path nullable).toClient = .client kind path nullable := rfl
    rw [hsame, ite_self] at houtcome
    exact hclient _ _ _ _ _ _ houtcome
  | native reduction =>
    cases source with
    | query sent =>
      obtain ⟨answer, -, houtcome⟩ := Except.bind_eq_ok.mp houtcome
      obtain ⟨value, -, houtcome⟩ := Except.bind_eq_ok.mp houtcome
      cases houtcome
      exact ⟨value, rfl⟩
    | lookup _ _ | disjunction _ => cases reduction <;> exact hclient _ _ _ _ _ _ houtcome

/-- The result of a query without a reduction is its documents. -/
theorem exists_documents_of_outcome (hagg : q.aggregation = none)
    (h : q.outcome limits s = .ok fetched) : ∃ documents, fetched = .documents documents := by
  obtain ⟨-, source, documents, -, -, rfl⟩ := (outcome_of_documents hagg).mp h
  exact ⟨_, rfl⟩

end BoundQuery

namespace Engine

open Run

variable {e : Engine} {q : BoundQuery} {t : Template} {bindings : Bindings} {includes : List Loading}
  {nativeOr : Bool}

theorem running_of_checkCancelled {s s' : RunState}
    (h : (connected Connected.checkCancelled).run s = (.ok (), s')) :
    s'.connection.cancelled = false := by
  obtain ⟨⟨store, attempts, cancelled, disturbed, waiting⟩, w⟩ := s
  cases cancelled with
  | true => exact nomatch h
  | false =>
    cases h
    rfl

/-- Documents are only returned by a run that is not cancelled: it is asked once more whether the caller has
cancelled, after the values were made and before one is picked. -/
theorem outcomeOf_running {documents : List Document} {outcome : Outcome} {s s' : RunState}
    (h : (e.outcomeOf q documents).run s = (.ok outcome, s')) : s'.connection.cancelled = false := by
  obtain ⟨_, _, -, h⟩ := run_bind_eq_ok h
  obtain ⟨values, _, -, h⟩ := run_bind_eq_ok h
  obtain ⟨_, s'', hcheck, h⟩ := run_bind_eq_ok h
  rw [run_ofExcept] at h
  obtain rfl : s'' = s' := congrArg Prod.snd h
  exact running_of_checkCancelled hcheck

/-- A query without a reduction only succeeds when it is not cancelled. -/
theorem executeBound_running (hagg : q.aggregation = none) {outcome : Outcome} {s s' : RunState}
    (h : (e.executeBound q).run s = (.ok outcome, s')) : s'.connection.cancelled = false := by
  have hfetched := (q.fetch_answers e.settings s.connection s.connection.reads_store).2.1
  obtain ⟨fetched, _, hfetch, h⟩ := run_bind_eq_ok h
  rw [run_connected] at hfetch
  obtain ⟨documents, rfl⟩ :=
    BoundQuery.exists_documents_of_outcome hagg (hfetched fetched (congrArg Prod.fst hfetch))
  exact outcomeOf_running h

/-- A template without a reduction only succeeds when it is not cancelled. This is what the sibling with a
reduction lacks. -/
theorem execute_running (hagg : t.aggregation = none) {outcome : Outcome} {s s' : RunState}
    (h : (e.execute t bindings).run s = (.ok outcome, s')) : s'.connection.cancelled = false := by
  obtain ⟨q, _, hbind, h⟩ := run_bind_eq_ok h
  rw [run_ofExcept] at hbind
  have hq := Except.mapError_eq_ok.mp (congrArg Prod.fst hbind)
  exact executeBound_running ((Template.bind_eq_ok hq).aggregation.trans hagg) h

/-- A query with a reduction has nothing to do but to fetch. After the last call it only converts a value, and
converting asks for nothing and looks at no connection. -/
theorem asks_executeBound (hagg : q.aggregation ≠ none) :
    (e.executeBound q).Asks e includes nativeOr := by
  have hfetched : ∀ s fetched, ((connected (q.fetch e.settings)).run s).1 = .ok fetched →
      ∃ value, fetched = .value value := by
    intro s fetched h
    exact BoundQuery.exists_value_of_outcome hagg <|
      (q.fetch_answers e.settings s.connection s.connection.reads_store).2.1 fetched h
  refine Run.Asks.bind_of_post q.asks_fetch hfetched ?_
  rintro _ ⟨value, rfl⟩
  exact (asks_ofExcept (e.reductionValue q value)).bind fun _ => asks_pure _

theorem asks_execute (e : Engine) (hagg : t.aggregation ≠ none) (bindings : Bindings)
    (nativeOr : Bool) : (e.execute t bindings).Asks e includes nativeOr := by
  unfold execute
  cases hbind : t.bind e.model bindings with
  | error f => exact (asks_throw (Failure.query f)).congr fun _ _ => rfl
  | ok q =>
    have hq : q.aggregation ≠ none := (Template.bind_eq_ok hbind).aggregation ▸ hagg
    exact (asks_executeBound hq).congr fun _ _ => rfl

/-! ## Interrupted runs -/

/-- The engine for places, with or without navigations that are started together. Everything else is as in the
standard settings. -/
def places (parallel : Bool) : Engine :=
  ⟨.places, { Settings.standard with
    execution := { ExecutionSettings.standard with parallelIncludes := parallel } }⟩

/-- Five calls are made for people and their places, also if navigations are started together and the run is
left waiting for the third one. -/
theorem attempts_people (parallel : Bool) :
    (((places parallel).execute .people []).run
      (start (.ofStore (.places "a" "b")) (.ofCapacity 10))).2.connection.attempts = 5 ∧
    (((places true).execute .people []).run
      (start (.disturbedAt (.places "a" "b") 3 .hang) (.ofCapacity 10))).2.connection.attempts = 5 := by
  cases parallel <;> decide +kernel

/-- No call is made after the one during which the caller cancels, and the run fails, unless it is the last
call of a reduction: then the run ends as if nothing had happened.

The exception is exact. A run without a reduction fails whichever of its calls it is cancelled in, the last
one included, because it looks once more before it returns; a reduction fails when it is cancelled in any call
but its last. As for calls that fail, nothing is assumed of the template or of the store. -/
theorem execute_of_cancel (e : Engine) (t : Template) (bindings : Bindings) (plans : PlanCache)
    (s : Store) :
    ∃ d : Script Outcome, (e.execute t bindings).Follows s.nativeOr ⟨.empty, plans⟩ d ∧
      let healthy := (e.execute t bindings).run (start (.ofStore s) plans)
      healthy.2.connection = (Connection.ofStore s).made (d.calls s) ∧
        ∀ n < (d.calls s).length,
          let cancelled := (e.execute t bindings).run (start (.disturbedAt s (n + 1) .cancel) plans)
          cancelled.2.connection.store = s.after ((d.calls s).take (n + 1)) ∧
          cancelled.2.connection.attempts = n + 1 ∧
          (t.aggregation = none ∨ n + 1 < (d.calls s).length →
            ∃ failure, cancelled.1 = .error failure) ∧
          (t.aggregation ≠ none → n + 1 = (d.calls s).length → cancelled.1 = healthy.1) := by
  obtain ⟨d, hfollows, hunchecked⟩ : ∃ d : Script Outcome,
      (e.execute t bindings).Follows s.nativeOr ⟨.empty, plans⟩ d ∧
        (t.aggregation ≠ none → d.Unchecked) := by
    by_cases hagg : t.aggregation = none
    · obtain ⟨script, hscript⟩ := scripted_execute e t bindings s.nativeOr
      exact ⟨_, (hscript ⟨.empty, plans⟩).2, fun h => absurd hagg h⟩
    · obtain ⟨script, hscript⟩ : (e.execute t bindings).Asks e [] s.nativeOr := asks_execute e hagg bindings _
      obtain ⟨hunchecked, -, hfollows⟩ := hscript ⟨.empty, plans⟩
      exact ⟨_, hfollows, fun _ => hunchecked⟩
  have hhealthy : (e.execute t bindings).run (start (.ofStore s) plans) = ((d.outcome s).1,
      ⟨(Connection.ofStore s).made (d.calls s), (d.outcome s).2⟩) := hfollows.run_ofStore
  dsimp only
  refine ⟨d, hfollows, by rw [hhealthy], fun n hn => ?_⟩
  have hcancelled : (e.execute t bindings).run (start (.disturbedAt s (n + 1) .cancel) plans) =
      d.play (.disturbedAt s (n + 1) .cancel) := hfollows _ rfl
  obtain ⟨hconnection, hfurther, hlast⟩ :=
    Script.play_of_cancel (Connection.awaits_disturbedAt s n .cancel) hn
  have hrunning : ∀ outcome, t.aggregation = none →
      (d.play (.disturbedAt s (n + 1) .cancel)).1 ≠ .ok outcome := by
    intro outcome hagg hok
    have hrun := hcancelled.trans (Prod.eta (d.play (.disturbedAt s (n + 1) .cancel))).symm
    rw [hok] at hrun
    have hfalse := execute_running hagg hrun
    rw [hconnection] at hfalse
    exact nomatch hfalse
  rw [hhealthy, hcancelled]
  refine ⟨by rw [hconnection]; rfl, ?_, fun hfails => ?_, fun hagg hend => ?_⟩
  · rw [hconnection]
    show 0 + ((d.calls s).take (n + 1)).length = n + 1
    rw [List.length_take, Nat.zero_add, Nat.min_eq_left hn]
  · rcases hfails with hagg | hlt
    · cases hresult : (d.play (.disturbedAt s (n + 1) .cancel)).1 with
      | error failure => exact ⟨failure, rfl⟩
      | ok outcome => exact absurd hresult (hrunning outcome hagg)
    · exact ⟨_, hfurther hlt⟩
  · exact hlast (hunchecked hagg) hend

/-- People and their places fail when they are cancelled during the last of the five calls, although nothing
is left to be fetched. -/
theorem execute_of_cancel_people :
    ∃ failure, (((⟨.places, .standard⟩ : Engine).execute .people []).run
      (start (.disturbedAt (.places "a" "b") 5 .cancel) (.ofCapacity 10))).1 = .error failure := by
  obtain ⟨d, -, hhealthy, h⟩ :=
    execute_of_cancel ⟨.places, .standard⟩ .people [] (.ofCapacity 10) (.places "a" "b")
  have hlength : 0 + (d.calls (.places "a" "b")).length = 5 :=
    (congrArg Connection.attempts hhealthy).symm.trans (attempts_people false).1
  obtain ⟨-, -, hfails, -⟩ := h 4 (by omega)
  exact hfails (.inl rfl)

/-- The count of the notes with one identity. -/
def countOfFirst : Template :=
  { Template.all "notes" "Note" "Id" with
    target := .document (.constant (.str "a"))
    aggregation := some ⟨.count, none, false⟩ }

/-- A count that is cancelled during its only call succeeds: the identity is looked up, the caller cancels
while the document is on its way, and the count of one is returned all the same. -/
theorem execute_cancelled_countOfFirst :
    (⟨.notes, .standard⟩ : Engine).compile
      ⟨"Note", [.filter ⟨"n", .equalTo (.member (.param "n") "Id") (.str "a")⟩, .count none]⟩ =
        .ok countOfFirst ∧
    (((⟨.notes, .standard⟩ : Engine).execute countOfFirst []).run
      (start (.disturbedAt (Store.notes true) 1 .cancel) (.ofCapacity 10))) =
        (.ok (.scalar (.int 1)),
          ⟨{ (Connection.ofStore (Store.notes true)).made [.getDocument "notes" "a"] with
              cancelled := true, disturbed := some (1, .cancel) }, ⟨.empty, .ofCapacity 10⟩⟩) :=
  ⟨rfl, rfl⟩

end Engine

end DocumentQuery
