import DocumentQuery.Proofs.Graph.History
import DocumentQuery.Proofs.Store.Together

/-!
# Computations that are traced by histories

A run works on a state and may fail on the way, but what it has done stays. `Traced R x h post` says
that a computation `x`, started in a state that is recorded by the history `h`, only ever extends the
history: the state it ends in, whether it succeeds or not, is recorded by a history that goes on from
`h`, and if it succeeds its result and that history are as `post` says. The relation `R` between
histories and states is fixed for a whole development, so an invariant of runs is stated once, as a
property of the histories that `R` admits.

The rules follow the structure of computations. There is none for weakening what is known at the start:
what a computation needs to know about the history it starts from is a hypothesis about that history.
-/

namespace DocumentQuery

section

variable {σ α β : Type} {R : History → σ → Prop} {h : History}

/-- A computation that only extends the history of its state, with what is known when it succeeds. The state
it ends in is recorded whether it succeeds or not, so a failure on the way loses nothing. -/
def Traced (R : History → σ → Prop) (x : ExceptT Failure (StateM σ) α) (h : History)
    (post : α → History → Prop) : Prop :=
  ∀ s, R h s → ∃ h', h <+: h' ∧ R h' (x.run s).2 ∧ ∀ a, (x.run s).1 = .ok a → post a h'

/-- A computation goes on with the result of its first part, if there is one. -/
theorem run_bind_state (x : ExceptT Failure (StateM σ) α) (f : α → ExceptT Failure (StateM σ) β)
    (s : σ) : (x >>= f).run s = match x.run s with
      | (.ok a, s') => (f a).run s'
      | (.error e, s') => (.error e, s') := by
  simp only [ExceptT.run_bind]
  simp only [bind, StateT.bind]
  rcases x.run s with ⟨_ | _, _⟩ <;> rfl

theorem run_bind_of_ok {x : ExceptT Failure (StateM σ) α} {f : α → ExceptT Failure (StateM σ) β}
    {s s' : σ} {a : α} (h : x.run s = (.ok a, s')) : (x >>= f).run s = (f a).run s' := by
  rw [run_bind_state, h]

/-- A run that succeeds succeeds in both of its parts, and its parts can be named. -/
theorem run_bind_eq_ok {x : ExceptT Failure (StateM σ) α}
    {f : α → ExceptT Failure (StateM σ) β} {s s' : σ} {b : β} (h : (x >>= f).run s = (.ok b, s')) :
    ∃ a s'', x.run s = (.ok a, s'') ∧ (f a).run s'' = (.ok b, s') := by
  rw [run_bind_state] at h
  rcases hrun : x.run s with ⟨_ | a, s''⟩
  · rw [hrun] at h
    exact nomatch h
  · rw [hrun] at h
    exact ⟨a, s'', rfl, h⟩

theorem run_rethrow (x : ExceptT Failure (StateM σ) α) (rename : Failure → Failure) (s : σ) :
    (tryCatch x fun e => throw (rename e)).run s = match x.run s with
      | (.ok a, s') => (.ok a, s')
      | (.error e, s') => (.error (rename e), s') := by
  simp only [tryCatch, tryCatchThe, MonadExceptOf.tryCatch, ExceptT.tryCatch, ExceptT.run_mk, bind,
    StateT.bind]
  simp only [ExceptT.run]
  rcases (x s : Id _) with ⟨_ | _, _⟩ <;> rfl

namespace Traced

theorem pure {a : α} {post : α → History → Prop} (hpost : post a h) : Traced R (pure a) h post :=
  fun s hs => ⟨h, List.prefix_rfl, hs, fun b hb => by cases hb; exact hpost⟩

theorem throw (e : Failure) (post : α → History → Prop) : Traced R (throw e) h post :=
  fun s hs => ⟨h, List.prefix_rfl, hs, fun b hb => by cases hb⟩

/-- A computation goes on from the history of its first part. What the second part needs is known of the
result and of that history; if the first part fails, its own history is the one that is asked for. -/
theorem bind {x : ExceptT Failure (StateM σ) α} {f : α → ExceptT Failure (StateM σ) β}
    {mid : α → History → Prop} {post : β → History → Prop} (hx : Traced R x h mid)
    (hf : ∀ a h', h <+: h' → mid a h' → Traced R (f a) h' post) : Traced R (x >>= f) h post := by
  intro s hs
  obtain ⟨h', hp, hr, hmid⟩ := hx s hs
  rw [run_bind_state]
  rcases hrun : x.run s with ⟨result, s'⟩
  rw [hrun] at hr hmid
  cases result with
  | error e => exact ⟨h', hp, hr, fun b hb => by cases hb⟩
  | ok a =>
    obtain ⟨h'', hp', hr', hpost⟩ := hf a h' hp (hmid a rfl) s' hr
    exact ⟨h'', hp.trans hp', hr', hpost⟩

theorem mono {x : ExceptT Failure (StateM σ) α} {post post' : α → History → Prop}
    (hx : Traced R x h post) (himp : ∀ a h', h <+: h' → post a h' → post' a h') :
    Traced R x h post' := by
  intro s hs
  obtain ⟨h', hp, hr, hpost⟩ := hx s hs
  exact ⟨h', hp, hr, fun a ha => himp a h' hp (hpost a ha)⟩

/-- What is made of a result at the end. -/
theorem map {x : ExceptT Failure (StateM σ) α} {f : α → β} {mid : α → History → Prop}
    {post : β → History → Prop} (hx : Traced R x h mid)
    (himp : ∀ a h', h <+: h' → mid a h' → post (f a) h') :
    Traced R (x >>= fun a => Pure.pure (f a)) h post :=
  hx.bind fun a h' hp hmid => Traced.pure (himp a h' hp hmid)

/-- Branches go on from each other's histories. The second one has to be traced from whatever history the
first one leaves behind, since it may be carried out after a failure of the first one. -/
theorem branches [Awaiting σ] (parallel : Bool) {x : ExceptT Failure (StateM σ) α}
    {y : ExceptT Failure (StateM σ) β} {mid : α → History → Prop} {rest : History → β → History → Prop}
    {post : α × β → History → Prop} (hgiveUp : ∀ h s, R h s → R h (Awaiting.giveUp s))
    (hx : Traced R x h mid) (hy : ∀ h', h <+: h' → Traced R y h' (rest h'))
    (hpost : ∀ a h', h <+: h' → mid a h' → ∀ b h'', h' <+: h'' → rest h' b h'' → post (a, b) h'') :
    Traced R (together parallel x y) h post := by
  intro s hs
  obtain ⟨h', hp, hr, hmid⟩ := hx s hs
  rcases hrun : x.run s with ⟨e | a, s'⟩ <;> rw [hrun] at hr hmid <;>
    obtain ⟨h'', hp', hr', hrest⟩ := hy h' hp s' hr
  · rcases run_together_of_error parallel y hrun with h | ⟨-, ⟨_, -, h⟩ | ⟨_, -, h⟩⟩ <;> rw [h]
    · exact ⟨h', hp, hr, fun _ ha => nomatch ha⟩
    · exact ⟨h'', hp.trans hp', hr', fun _ ha => nomatch ha⟩
    · exact ⟨h'', hp.trans hp', hgiveUp _ _ hr', fun _ ha => nomatch ha⟩
  · rw [run_together_of_ok parallel y hrun]
    refine ⟨h'', hp.trans hp', hr', fun p hok => ?_⟩
    obtain ⟨b, hb, rfl⟩ := Except.map_eq_ok.mp hok
    exact hpost a h' hp (hmid a rfl) b h'' hp' (hrest b hb)

/-- A computation that reads the state first goes on with what is recorded. -/
theorem get_bind {f : σ → ExceptT Failure (StateM σ) α} {post : α → History → Prop}
    (hf : ∀ s, R h s → Traced R (f s) h post) : Traced R (get >>= f) h post := by
  intro s hs
  rw [run_bind_state]
  exact hf s hs s hs

/-- A computation that only changes the state records the change. -/
theorem modify {f : σ → σ} {h' : History} {post : PUnit → History → Prop} (hp : h <+: h')
    (hr : ∀ s, R h s → R h' (f s)) (hpost : post ⟨⟩ h') :
    Traced R (modify f : ExceptT Failure (StateM σ) PUnit) h post :=
  fun s hs => ⟨h', hp, hr s hs, fun _ _ => hpost⟩

/-- A state that is set is recorded if it is one that the history records. -/
theorem set {s : σ} {h' : History} {post : PUnit → History → Prop} (hp : h <+: h') (hr : R h' s)
    (hpost : post ⟨⟩ h') : Traced R (set s : ExceptT Failure (StateM σ) PUnit) h post :=
  fun _ _ => ⟨h', hp, hr, fun _ _ => hpost⟩

/-- An event may be noted that changes no state. -/
theorem note {x : ExceptT Failure (StateM σ) α} {h' : History} {post : α → History → Prop}
    (hp : h <+: h') (hr : ∀ s, R h s → R h' s) (hx : Traced R x h' post) : Traced R x h post := by
  intro s hs
  obtain ⟨h'', hp', hr', hpost⟩ := hx s (hr s hs)
  exact ⟨h'', hp.trans hp', hr', hpost⟩

/-- Naming the place of a failure changes nothing else. -/
theorem rethrow {x : ExceptT Failure (StateM σ) α} {rename : Failure → Failure}
    {post : α → History → Prop} (hx : Traced R x h post) :
    Traced R (tryCatch x fun e => MonadExcept.throw (rename e)) h post := by
  intro s hs
  obtain ⟨h', hp, hr, hpost⟩ := hx s hs
  rw [run_rethrow]
  rcases hrun : x.run s with ⟨_ | _, _⟩ <;> rw [hrun] at hr hpost
  · exact ⟨h', hp, hr, fun a ha => by cases ha⟩
  · exact ⟨h', hp, hr, hpost⟩

end Traced

end

end DocumentQuery
