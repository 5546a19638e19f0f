import DocumentQuery.Proofs.Run.Traced
import DocumentQuery.Proofs.Store.Calls
import DocumentQuery.Run.Basic

/-!
# Scripts of calls

What a run does next depends on the answers it has had so far, and on nothing else of the connection. A
`Script` is a run in this form: it has ended, or it makes sure that it is not cancelled, or it asks a
request and goes on with the answer. Beside a request there may be other branches of the run, which go on
while the request is left waiting; they are a script of their own. `Script.play` plays a script on a
connection, whatever may happen there.

Since a script is a tree, the calls of a run are data (`Script.calls`), and runs on differently disturbed
connections can be compared. As long as nothing happens, a script makes its calls and ends as the store
alone decides (`Script.play_of_quiet`); what is beside its requests is never played. If a call fails at once,
the script ends there with the failure (`Script.play_of_failing`). If it fails late, what is beside it is
played to its end first (`Script.play_of_late`), and nothing else. If the caller cancels during a call that
completes, that call is the last one, and the script ends in success only if it had come to its end
(`Script.play_of_cancel`).

The result type of a script is an index and no parameter, because what is beside a request has no result
that anybody waits for.

## Main definitions

* `Store.Request` — a call of the store as data
* `Script` — a run as a tree of requests
* `Script.play` — a script on a connection
* `Script.calls`, `Script.outcome` — what a script asks of a store, and how it ends there
* `Script.node?` — where a script makes a call, with what is beside it
* `Script.branches` — two scripts that are branches of one
-/

namespace DocumentQuery

/-! ## Requests -/

/-- A call of the store. -/
inductive Store.Request where
  | getDocument (collection id : String)
  | runQuery (query : StoreQuery)
  | getByPath (path : String)
  | aggregate (query : StoreQuery) (reduction : StoreReduction)

namespace Store

namespace Request

/-- What answers a request. -/
def Answer : Request → Type
  | .getDocument _ _ => Option Document
  | .runQuery _ => List Document
  | .getByPath _ => Option Document
  | .aggregate _ _ => Json

/-- Whether two requests are queries of one disjunction: they differ in their filters alone. Such queries may
be sent together. -/
def IsAlternative (r r' : Request) : Prop :=
  ∃ (query : StoreQuery) (filter : Option StoreFilter),
    r = .runQuery query ∧ r' = .runQuery { query with filter := filter }

/-- How the store answers a request. -/
def call : (r : Request) → Call r.Answer
  | .getDocument collection id => Store.getDocument collection id
  | .runQuery query => Store.runQuery query
  | .getByPath path => Store.getByPath path
  | .aggregate query reduction => Store.aggregate query reduction

/-- The query of a request, if it has one. -/
def query? : Request → Option StoreQuery
  | .runQuery query => some query
  | .aggregate query _ => some query
  | _ => none

/-- The store keeps its documents, counts the request and records its query. -/
theorem call_spec (r : Request) (s : Store) :
    (r.call s).2.collections = s.collections ∧ (r.call s).2.nativeOr = s.nativeOr ∧
      (r.call s).2.calls.total = s.calls.total + 1 ∧
      (r.call s).2.queries = s.queries ++ r.query?.toList := by
  cases r with
  | getDocument _ _ | getByPath _ =>
    refine ⟨rfl, rfl, ?_, (List.append_nil _).symm⟩
    simp only [call, Store.getDocument, Store.getByPath, CallCounts.total]
    omega
  | runQuery _ | aggregate _ _ =>
    refine ⟨rfl, rfl, ?_, rfl⟩
    simp only [call, Store.runQuery, Store.aggregate, CallCounts.total]
    omega

end Request

/-- The store after requests. -/
def after (s : Store) (requests : List Request) : Store :=
  requests.foldl (fun s r => (r.call s).2) s

@[simp] theorem after_nil (s : Store) : s.after [] = s :=
  rfl

@[simp] theorem after_cons (s : Store) (r : Request) (requests : List Request) :
    s.after (r :: requests) = (r.call s).2.after requests :=
  rfl

end Store

/-! ## Calls on a connection -/

namespace Connection

/-- The connection after requests that the store answered. -/
def made (c : Connection) (requests : List Store.Request) : Connection :=
  { c with store := c.store.after requests, attempts := c.attempts + requests.length }

theorem made_cons (c : Connection) (r : Store.Request) (requests : List Store.Request) :
    c.made (r :: requests) = (c.made [r]).made requests := by
  simp only [made, Store.after_cons, Store.after_nil, List.length_cons, List.length_nil, Nat.zero_add,
    Nat.add_assoc, Nat.add_comm 1]

/-- Whether nothing happens on a connection during the next calls. What may happen at a later one does not
matter. -/
structure Quiet (c : Connection) (count : Nat) : Prop where
  /-- The run is not cancelled. -/
  running : c.cancelled = false
  /-- None of the next calls is disturbed. -/
  undisturbed : ∀ i < count, c.disturbanceAt? (c.attempts + i + 1) = none

/-- A connection to a store on which one call, counted from one, is disturbed. No call was made on it yet. -/
def disturbedAt (s : Store) (n : Nat) (disturbance : Disturbance) : Connection :=
  ⟨s, 0, false, some (n, disturbance), false⟩

variable {c : Connection} {count n : Nat} {disturbance : Disturbance}

/-- As long as nothing happens, a call is answered by the store. -/
theorem Quiet.run_call (h : c.Quiet (count + 1)) (r : Store.Request) :
    (Connected.call r.call).run c = ((r.call c.store).1.mapError .store, c.made [r]) := by
  have hnone : c.disturbanceAt? (c.attempts + 1) = none := h.undisturbed 0 (Nat.succ_pos count)
  rw [Connected.run_call, h.running, if_neg Bool.false_ne_true, hnone]
  simp only [Option.bind_none, attempt, Option.any_none, Bool.or_false]
  rfl

theorem Quiet.made (h : c.Quiet (count + 1)) (r : Store.Request) : (c.made [r]).Quiet count where
  running := h.running
  undisturbed i hi := by
    have hnext := h.undisturbed (i + 1) (Nat.succ_lt_succ hi)
    rwa [← Nat.add_assoc, Nat.add_right_comm c.attempts i 1] at hnext

theorem quiet_ofStore (s : Store) (count : Nat) : (ofStore s).Quiet count :=
  ⟨rfl, fun _ _ => rfl⟩

/-- A connection on which something happens at a later call. -/
structure Awaits (c : Connection) (n : Nat) (disturbance : Disturbance) : Prop where
  /-- The run is not cancelled yet. -/
  running : c.cancelled = false
  /-- The call at which something happens is ahead by this many calls. -/
  disturbed : c.disturbed = some (c.attempts + n + 1, disturbance)
  /-- No call was left waiting. -/
  settled : c.waiting = false

theorem awaits_disturbedAt (s : Store) (n : Nat) (disturbance : Disturbance) :
    (disturbedAt s (n + 1) disturbance).Awaits n disturbance :=
  ⟨rfl, congrArg (fun k => some (k + 1, disturbance)) (Nat.zero_add n).symm, rfl⟩

theorem Awaits.disturbanceAt? (h : c.Awaits n disturbance) (i : Nat) :
    c.disturbanceAt? (c.attempts + i + 1) = if n = i then some disturbance else none := by
  unfold Connection.disturbanceAt?
  rw [h.disturbed]
  dsimp only
  by_cases hi : n = i
  · rw [if_pos hi, if_pos (by rw [hi])]
  · rw [if_neg hi, if_neg (by omega)]

/-- Nothing happens before. -/
theorem Awaits.quiet (h : c.Awaits n disturbance) (hcount : count ≤ n) : c.Quiet count where
  running := h.running
  undisturbed i hi := by
    have hne : n ≠ i := by omega
    rw [h.disturbanceAt? i, if_neg hne]

theorem Awaits.made (h : c.Awaits (n + 1) disturbance) (r : Store.Request) :
    (c.made [r]).Awaits n disturbance where
  running := h.running
  disturbed := by
    have hdisturbed := h.disturbed
    rwa [← Nat.add_assoc, Nat.add_right_comm c.attempts n 1] at hdisturbed
  settled := h.settled

/-- A call that does not reach the store fails with the failure of the disturbance, and the store is as it
was. -/
theorem Awaits.run_call (h : c.Awaits 0 disturbance) {failure : Failure}
    (hfailure : disturbance.failure? = some failure) (r : Store.Request) :
    (Connected.call r.call).run c = (.error failure, c.attempt (some disturbance)) := by
  have hnow : c.disturbanceAt? (c.attempts + 1) = some disturbance := h.disturbanceAt? 0
  rw [Connected.run_call, h.running, if_neg Bool.false_ne_true, hnow, Option.bind_some, hfailure]

/-- A call during which the caller cancels is answered by the store. -/
theorem Awaits.run_call_cancel (h : c.Awaits 0 .cancel) (r : Store.Request) :
    (Connected.call r.call).run c =
      ((r.call c.store).1.mapError .store, { c.made [r] with cancelled := true }) := by
  have hnow : c.disturbanceAt? (c.attempts + 1) = some .cancel := h.disturbanceAt? 0
  rw [Connected.run_call, h.running, if_neg Bool.false_ne_true, hnow, attempt, h.running, h.settled]
  rw [Connection.made, h.settled]
  rfl

/-- A call that has an answer leaves nothing waiting. -/
theorem waiting_of_call {r : Store.Request} {answer : r.Answer} {c' : Connection}
    (h : (Connected.call r.call).run c = (.ok answer, c')) : c'.waiting = c.waiting := by
  rw [Connected.run_call] at h
  split at h
  · exact nomatch h
  split at h
  · exact nomatch h
  next hnone =>
    obtain rfl := congrArg Prod.snd h
    cases hdisturbance : c.disturbanceAt? (c.attempts + 1) with
    | none => exact Bool.or_false _
    | some disturbance =>
      rw [hdisturbance, Option.bind_some] at hnone
      cases disturbance with
      | cancel => exact Bool.or_false _
      | stall | fail _ | hang | failLate _ => exact nomatch hnone

theorem call_nativeOr (c : Connection) (r : Store.Request) :
    ((Connected.call r.call).run c).2.store.nativeOr = c.store.nativeOr := by
  rw [Connected.run_call]
  split
  · rfl
  split
  · rfl
  · exact (r.call_spec c.store).2.1

end Connection

/-! ## Scripts -/

/-- A run as a tree of requests. Where a run may end, its workspace is kept. -/
inductive Script : Type → Type 1 where
  /-- The run has ended. -/
  | done {α : Type} (result : Except Failure α) (workspace : Workspace) : Script α
  /-- The run goes on unless it is cancelled. -/
  | check {α : Type} (workspace : Workspace) (next : Script α) : Script α
  /-- The run asks a request and goes on with the answer, if there is one. While the request is left
  waiting, other branches go on. -/
  | ask {α : Type} (request : Store.Request) (workspace : Workspace) (next : request.Answer → Script α)
    (beside : Script Unit) : Script α

namespace Script

variable {α β : Type}

/-- A script on a connection. A request that fails ends the script, unless it was left waiting; then what is
beside it is played on the same connection, and a failure of that comes first. -/
def play {α : Type} (c : Connection) : Script α → Except Failure α × RunState
  | done result workspace => (result, ⟨c, workspace⟩)
  | check workspace next => if c.cancelled then (.error .cancelled, ⟨c, workspace⟩) else next.play c
  | ask request workspace next beside =>
    match (Connected.call request.call).run c with
    | (.ok answer, c') => (next answer).play c'
    | (.error e, c') =>
      if !c.waiting && c'.waiting then
        match beside.play c' with
        | (.ok _, s) => (.error e, s)
        | (.error e', s) => (.error e', Awaiting.giveUp s)
      else (.error e, ⟨c', workspace⟩)

/-- The requests that a script asks of a store when nothing happens. The list ends where the store fails to
answer. -/
def calls {α : Type} (s : Store) : Script α → List Store.Request
  | done _ _ => []
  | check _ next => next.calls s
  | ask request _ next _ => request ::
    match (request.call s).1 with
    | .ok answer => (next answer).calls (s.after [request])
    | .error _ => []

/-- How a script ends on a store when nothing happens, and with which workspace. -/
def outcome {α : Type} (s : Store) : Script α → Except Failure α × Workspace
  | done result workspace => (result, workspace)
  | check _ next => next.outcome s
  | ask request workspace next _ =>
    match (request.call s).1 with
    | .ok answer => (next answer).outcome (s.after [request])
    | .error e => (.error (.store e), workspace)

/-- Where a script asks a request, with what is beside it. -/
structure Node where
  request : Store.Request
  workspace : Workspace
  beside : Script Unit

/-- Where a script asks a request, counted from zero, when nothing happens before. The requests found so are
those of `calls`, each with its place in the script. -/
def node? {α : Type} (s : Store) (n : Nat) : Script α → Option Node
  | done _ _ => none
  | check _ next => next.node? s n
  | ask request workspace next beside =>
    match n with
    | 0 => some ⟨request, workspace, beside⟩
    | n + 1 =>
      match (request.call s).1 with
      | .ok answer => (next answer).node? (s.after [request]) n
      | .error _ => none

/-- A script goes on with another one where it succeeds. What is beside its requests stays beside them, and
the other script is not part of it. -/
def bind {α β : Type} (f : α → Workspace → Script β) : Script α → Script β
  | done (.ok a) workspace => f a workspace
  | done (.error e) workspace => done (.error e) workspace
  | check workspace next => check workspace (next.bind f)
  | ask request workspace next beside => ask request workspace (fun answer => (next answer).bind f) beside

/-- What is made of the result of a script. -/
def map {α β : Type} (f : α → β) (d : Script α) : Script β :=
  d.bind fun a workspace => done (.ok (f a)) workspace

/-- Two scripts that are started together. The second one is played after the first one, and it is also
beside every request of the first one, after what is there already. -/
def together {α β : Type} (f : Workspace → Script β) : Script α → Script (α × β)
  | done (.ok a) workspace => (f workspace).map (a, ·)
  | done (.error e) workspace => done (.error e) workspace
  | check workspace next => check workspace (next.together f)
  | ask request workspace next beside =>
    ask request workspace (fun answer => (next answer).together f)
      (beside.bind fun _ workspace' => (f workspace').map fun _ => ())

/-- Two scripts that are branches of one. -/
def branches (parallel : Bool) (f : Workspace → Script β) (d : Script α) : Script (α × β) :=
  if parallel then d.together f else d.bind fun a workspace => (f workspace).map (a, ·)

theorem play_bind (f : α → Workspace → Script β) (d : Script α) (c : Connection) :
    (d.bind f).play c = match d.play c with
      | (.ok a, s) => (f a s.workspace).play s.connection
      | (.error e, s) => (.error e, s) := by
  induction d generalizing c with
  | done result workspace => cases result <;> rfl
  | check workspace next ih =>
    simp only [bind, play]
    split
    · rfl
    · exact ih f c
  | ask request workspace next beside ih _ =>
    simp only [bind, play]
    rcases (Connected.call request.call).run c with ⟨e | answer, c'⟩
    · dsimp only
      split
      · rcases beside.play c' with ⟨_ | _, _⟩ <;> rfl
      · rfl
    · exact ih answer f c'

theorem play_map (f : α → β) (d : Script α) (c : Connection) :
    (d.map f).play c = ((d.play c).1.map f, (d.play c).2) := by
  rw [map, play_bind]
  rcases d.play c with ⟨_ | _, _⟩ <;> rfl

/-- A script that succeeds has left nothing waiting. -/
theorem waiting_of_play {d : Script α} {c : Connection} {a : α} {s : RunState} (h : d.play c = (.ok a, s)) :
    s.connection.waiting = c.waiting := by
  induction d generalizing c with
  | done result workspace => exact (congrArg (fun p => p.2.connection.waiting) h).symm
  | check workspace next ih =>
    rw [play] at h
    split at h
    · exact nomatch h
    · exact ih h
  | ask request workspace next beside ih _ =>
    rw [play] at h
    rcases hcall : (Connected.call request.call).run c with ⟨e | answer, c'⟩ <;> rw [hcall] at h
    · dsimp only at h
      split at h
      · rcases hbeside : beside.play c' with ⟨_ | _, _⟩ <;> rw [hbeside] at h <;> exact nomatch h
      · exact nomatch h
    · exact (ih answer h).trans (Connection.waiting_of_call hcall)


/-- What two branches of a script do is what the first one does and then the second one. If the first one
fails and was left waiting, the second one has gone on meanwhile. By induction on the first script, where
every request has the second one beside it. -/
theorem play_together (f : Workspace → Script β) (d : Script α) (c : Connection) :
    (d.together f).play c = match d.play c with
      | (.ok a, s) => (((f s.workspace).play s.connection).1.map (a, ·),
          ((f s.workspace).play s.connection).2)
      | (.error e, s) =>
        if !c.waiting && s.connection.waiting then
          match (f s.workspace).play s.connection with
          | (.ok _, s') => (.error e, s')
          | (.error e', s') => (.error e', Awaiting.giveUp s')
        else (.error e, s) := by
  induction d generalizing c with
  | done result workspace =>
    cases result with
    | error e =>
      simp only [together, play, Bool.not_and_self]
      rfl
    | ok a => exact play_map _ _ _
  | check workspace next ih =>
    simp only [together, play]
    split
    · simp only [Bool.not_and_self]
      rfl
    · exact ih c
  | ask request workspace next beside ih _ =>
    simp only [together, play]
    rcases hcall : (Connected.call request.call).run c with ⟨e | answer, c'⟩
    · dsimp only
      by_cases hwaiting : (!c.waiting && c'.waiting) = true
      · rw [if_pos hwaiting, if_pos hwaiting, play_bind]
        rcases hbeside : beside.play c' with ⟨e' | u, s⟩
        · -- what was left waiting is given up, and the second branch is not started
          simp [Awaiting.giveUp]
        · have hstill : (!c.waiting && s.connection.waiting) = true := by
            rw [waiting_of_play hbeside]
            exact hwaiting
          dsimp only
          rw [if_pos hstill, play_map]
          rcases (f s.workspace).play s.connection with ⟨_ | _, _⟩ <;> rfl
      · rw [if_neg hwaiting, if_neg hwaiting]
        dsimp only
        rw [if_neg hwaiting]
    · rw [← Connection.waiting_of_call hcall]
      exact ih answer c'

/-! ## What scripts ask -/

/-- Whether a script nowhere looks whether it is cancelled but when it asks. Such a script may end in success
although the caller has cancelled. -/
def Unchecked {α : Type} : Script α → Prop
  | done _ _ => True
  | check _ _ => False
  | ask _ _ next _ => ∀ answer, (next answer).Unchecked

theorem Unchecked.bind {f : α → Workspace → Script β} {d : Script α} (hd : d.Unchecked)
    (hf : ∀ a w, (f a w).Unchecked) : (d.bind f).Unchecked := by
  induction d with
  | done result workspace =>
    cases result with
    | error e => trivial
    | ok a => exact hf a workspace
  | check _ _ _ => exact hd.elim
  | ask request workspace next _ ih _ => exact fun answer => ih answer (hd answer) hf

theorem Unchecked.map {d : Script α} (hd : d.Unchecked) (f : α → β) : (d.map f).Unchecked :=
  hd.bind fun _ _ => trivial

theorem Unchecked.branches {d : Script α} {f : Workspace → Script β} (hd : d.Unchecked)
    (hf : ∀ w, (f w).Unchecked) (parallel : Bool) : (d.branches parallel f).Unchecked := by
  cases parallel with
  | false => exact hd.bind fun _ w => (hf w).map _
  | true =>
    show (d.together f).Unchecked
    induction d with
    | done result workspace =>
      cases result with
      | error e => trivial
      | ok a => exact (hf workspace).map _
    | check _ _ _ => exact hd.elim
    | ask request workspace next _ ih _ => exact fun answer => ih answer (hd answer)

/-- A script that looks only when it asks has ended when it asks nothing. -/
theorem Unchecked.done_of_calls {d : Script α} {s : Store} (hd : d.Unchecked)
    (hnone : (d.calls s).length = 0) : ∃ result workspace, d = done result workspace := by
  cases d with
  | done result workspace => exact ⟨result, workspace, rfl⟩
  | check _ _ => exact hd.elim
  | ask request _ _ _ =>
    rw [calls, List.length_cons] at hnone
    exact absurd hnone (Nat.succ_ne_zero _)

variable {d : Script α} {c : Connection}

/-- Playing a script leaves what the store knows about disjunctions. -/
theorem play_nativeOr (d : Script α) (c : Connection) :
    (d.play c).2.connection.store.nativeOr = c.store.nativeOr := by
  induction d generalizing c with
  | done result workspace => rfl
  | check workspace next ih =>
    simp only [play]
    split
    · rfl
    · exact ih c
  | ask request workspace next beside ih ih_beside =>
    have hcall := c.call_nativeOr request
    simp only [play]
    rcases hrun : (Connected.call request.call).run c with ⟨e | answer, c'⟩ <;> rw [hrun] at hcall
    · dsimp only
      split
      · have hbeside := (ih_beside c').trans hcall
        rcases hplay : beside.play c' with ⟨_ | _, _⟩ <;> rw [hplay] at hbeside <;> exact hbeside
      · exact hcall
    · exact (ih answer c').trans hcall

/-- As long as nothing happens, a script makes its calls and ends as the store decides. -/
theorem play_of_quiet (h : c.Quiet (d.calls c.store).length) :
    d.play c = ((d.outcome c.store).1, ⟨c.made (d.calls c.store), (d.outcome c.store).2⟩) := by
  induction d generalizing c with
  | done result workspace => rfl
  | check workspace next ih =>
    rw [play, h.running, if_neg Bool.false_ne_true]
    exact ih h
  | ask request workspace next beside ih _ =>
    simp only [calls, outcome] at h ⊢
    rw [play, h.run_call request]
    cases hanswer : (request.call c.store).1 with
    | error e =>
      have hsettled : (!c.waiting && (c.made [request]).waiting) = false := Bool.not_and_self c.waiting
      simp only [Except.mapError, hsettled]
      rfl
    | ok answer =>
      rw [hanswer] at h
      rw [c.made_cons request ((next answer).calls _)]
      exact ih answer (h.made request)

section

variable {n : Nat} {disturbance : Disturbance} {failure : Failure} {node : Node}

end

/-- On a cancelled connection nothing is done any more, and a script that has not ended fails. -/
theorem play_of_cancelled (d : Script α) (c : Connection) (h : c.cancelled = true) :
    (d.play c).2.connection = c ∧
      ((d.play c).1 = .error .cancelled ∨ ∃ result workspace, d = .done result workspace) := by
  cases d with
  | done result workspace => exact ⟨rfl, .inr ⟨result, workspace, rfl⟩⟩
  | check workspace next =>
    rw [play, h, if_pos rfl]
    exact ⟨rfl, .inl rfl⟩
  | ask request workspace next beside =>
    have hsettled : (!c.waiting && c.waiting) = false := Bool.not_and_self c.waiting
    rw [play, Connected.run_call, h, if_pos rfl]
    simp only [hsettled]
    exact ⟨rfl, .inl rfl⟩

/-- A script during one of whose calls the caller cancels makes that call and no other. It fails if it had
further calls to make or looks once more whether it is cancelled, and it ends as if nothing had happened if
there is nothing left but its end. -/
theorem play_of_cancel {n : Nat} (h : c.Awaits n .cancel) (hn : n < (d.calls c.store).length) :
    (d.play c).2.connection = { c.made ((d.calls c.store).take (n + 1)) with cancelled := true } ∧
      (n + 1 < (d.calls c.store).length → (d.play c).1 = .error .cancelled) ∧
      (d.Unchecked → n + 1 = (d.calls c.store).length → (d.play c).1 = (d.outcome c.store).1) := by
  induction d generalizing c n with
  | done result workspace => exact absurd hn (Nat.not_lt_zero n)
  | check workspace next ih =>
    rw [play, h.running, if_neg Bool.false_ne_true]
    obtain ⟨hconnection, hfailed, -⟩ := ih h hn
    exact ⟨hconnection, hfailed, fun hd => hd.elim⟩
  | ask request workspace next beside ih _ =>
    simp only [calls, outcome] at hn ⊢
    cases n with
    | zero =>
      rw [play, h.run_call_cancel request]
      cases hanswer : (request.call c.store).1 with
      | error e =>
        have hsettled : (!c.waiting && (c.made [request]).waiting) = false :=
          Bool.not_and_self c.waiting
        simp only [Except.mapError, hsettled]
        exact ⟨rfl, fun hlt => absurd hlt (Nat.lt_irrefl 1), fun _ _ => rfl⟩
      | ok answer =>
        obtain ⟨hconnection, hresult⟩ :=
          (next answer).play_of_cancelled { c.made [request] with cancelled := true } rfl
        refine ⟨hconnection, fun hlt => hresult.resolve_right ?_, fun hd hlast => ?_⟩
        -- a script that has ended makes no further call
        · rintro ⟨result, w, hdone⟩
          simp only [hdone, calls, List.length_singleton, Nat.lt_irrefl] at hlt
        · obtain ⟨result, w, hdone⟩ := (hd answer).done_of_calls (Nat.succ.inj hlast).symm
          show ((next answer).play _).1 = ((next answer).outcome _).1
          rw [hdone]
          rfl
    | succ n =>
      have hquiet : c.Quiet 1 := h.quiet (Nat.succ_le_succ n.zero_le)
      rw [play, hquiet.run_call request, List.take_succ_cons]
      cases hanswer : (request.call c.store).1 with
      | error e =>
        rw [hanswer] at hn
        exact absurd (Nat.lt_of_succ_lt_succ hn) n.not_lt_zero
      | ok answer =>
        rw [hanswer] at hn
        obtain ⟨hconnection, hfailed, hended⟩ := ih answer (h.made request) (Nat.lt_of_succ_lt_succ hn)
        rw [c.made_cons request (((next answer).calls _).take (n + 1))]
        refine ⟨hconnection, fun hlt => hfailed (Nat.lt_of_succ_lt_succ hlt), fun hd hlast => ?_⟩
        exact hended (hd answer) (Nat.succ.inj hlast)

end Script

end DocumentQuery
