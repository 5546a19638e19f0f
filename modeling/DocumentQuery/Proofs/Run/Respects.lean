import DocumentQuery.Proofs.Run.Traced

/-!
# Computations that respect an invariant

A run may fail at any of its steps, and what it has done up to there stays. What is true of a state
however far a run has come is an invariant, and what is true of a failure wherever it comes from is a
property of failures. `Respects inv fails x post` says both of a computation `x`: from a state in which
`inv` holds it ends in one, whether it succeeds or not; if it fails, the failure is as `fails` says; and
if it succeeds, its result is as `post` says.

`Except.FailsOnly` is the second part alone, for results that work on no state.

Where an invariant is an inequality between the state before and the state after, such as that no call is
taken back, the state before is made part of the invariant. A computation that is started together with others
may be carried on after one of them has failed; `Respects.branches` therefore asks that the invariant does not
look at what is waited for.
-/

namespace DocumentQuery

/-! ## Computations -/

section

variable {σ α β : Type} {inv : σ → Prop} {fails : Failure → Prop}

/-- A computation that keeps an invariant of its state and fails only in given ways, with what is known of its
result. The invariant has to hold at the start and is kept whether the computation succeeds or not. -/
def Respects (inv : σ → Prop) (fails : Failure → Prop) (x : ExceptT Failure (StateM σ) α)
    (post : α → Prop) : Prop :=
  ∀ s, inv s → inv (x.run s).2 ∧ (∀ a, (x.run s).1 = .ok a → post a) ∧
    ∀ e, (x.run s).1 = .error e → fails e

namespace Respects

theorem pure {a : α} {post : α → Prop} (h : post a) : Respects inv fails (pure a) post :=
  fun _ hs => ⟨hs, fun _ hb => Except.ok.inj hb ▸ h, fun _ he => nomatch he⟩

theorem throw {e : Failure} (h : fails e) (post : α → Prop) : Respects inv fails (throw e) post :=
  fun _ hs => ⟨hs, fun _ hb => (nomatch hb), fun _ he => Except.error.inj he ▸ h⟩

/-- A computation goes on with what is known of the result of its first part. -/
theorem bind {x : ExceptT Failure (StateM σ) α} {f : α → ExceptT Failure (StateM σ) β}
    {mid : α → Prop} {post : β → Prop} (hx : Respects inv fails x mid)
    (hf : ∀ a, mid a → Respects inv fails (f a) post) : Respects inv fails (x >>= f) post := by
  intro s hs
  obtain ⟨hinv, hmid, hfails⟩ := hx s hs
  rw [run_bind_state]
  rcases hrun : x.run s with ⟨result, s'⟩
  rw [hrun] at hinv hmid hfails
  cases result with
  | error e => exact ⟨hinv, fun _ hb => (nomatch hb), fun _ he => hfails _ (Except.error.inj he ▸ rfl)⟩
  | ok a => exact hf a (hmid a rfl) s' hinv

/-- Branches keep an invariant that does not depend on what is left waiting, since the second one may also
be carried out after a failure of the first one. -/
theorem branches [Awaiting σ] (parallel : Bool) {x : ExceptT Failure (StateM σ) α}
    {y : ExceptT Failure (StateM σ) β} {mid : α → Prop} {rest : β → Prop} {post : α × β → Prop}
    (hgiveUp : ∀ s, inv s → inv (Awaiting.giveUp s)) (hx : Respects inv fails x mid)
    (hy : Respects inv fails y rest) (hpost : ∀ a b, mid a → rest b → post (a, b)) :
    Respects inv fails (together parallel x y) post := by
  intro s hs
  obtain ⟨hinv, hmid, hfails⟩ := hx s hs
  rcases hrun : x.run s with ⟨e | a, s'⟩ <;> rw [hrun] at hinv hmid hfails <;>
    obtain ⟨hinv', hrest, hfails'⟩ := hy s' hinv
  · rcases run_together_of_error parallel y hrun with h | ⟨-, ⟨_, -, h⟩ | ⟨_, he', h⟩⟩ <;> rw [h]
    · exact ⟨hinv, fun _ ha => (nomatch ha), fun _ he => Except.error.inj he ▸ hfails _ rfl⟩
    · exact ⟨hinv', fun _ ha => (nomatch ha), fun _ he => Except.error.inj he ▸ hfails _ rfl⟩
    · exact ⟨hgiveUp _ hinv', fun _ ha => (nomatch ha), fun _ he => Except.error.inj he ▸ hfails' _ he'⟩
  · rw [run_together_of_ok parallel y hrun]
    refine ⟨hinv', fun p hok => ?_, fun e' hfailed => ?_⟩
    · obtain ⟨b, hb, rfl⟩ := Except.map_eq_ok.mp hok
      exact hpost a b (hmid a rfl) (hrest b hb)
    · exact hfails' e' (Except.map_eq_error.mp hfailed)

theorem mono {x : ExceptT Failure (StateM σ) α} {fails' : Failure → Prop} {post post' : α → Prop}
    (hx : Respects inv fails x post) (hpost : ∀ a, post a → post' a)
    (hfails : ∀ e, fails e → fails' e) : Respects inv fails' x post' := by
  intro s hs
  obtain ⟨hinv, ha, he⟩ := hx s hs
  exact ⟨hinv, fun a h => hpost a (ha a h), fun e h => hfails e (he e h)⟩

/-- A computation that reads the state first goes on with a state in which the invariant holds. -/
theorem get_bind {f : σ → ExceptT Failure (StateM σ) α} {post : α → Prop}
    (hf : ∀ s, inv s → Respects inv fails (f s) post) : Respects inv fails (get >>= f) post := by
  intro s hs
  rw [run_bind_state]
  exact hf s hs s hs

theorem modify {f : σ → σ} {post : PUnit → Prop} (hf : ∀ s, inv s → inv (f s)) (hpost : post ⟨⟩) :
    Respects inv fails (modify f : ExceptT Failure (StateM σ) PUnit) post :=
  fun s hs => ⟨hf s hs, fun _ _ => hpost, fun _ he => nomatch he⟩

/-- A failure that is renamed is a failure of the given ones still. -/
theorem rethrow {x : ExceptT Failure (StateM σ) α} {rename : Failure → Failure} {post : α → Prop}
    (hx : Respects inv fails x post) (hrename : ∀ e, fails e → fails (rename e)) :
    Respects inv fails (tryCatch x fun e => MonadExcept.throw (rename e)) post := by
  intro s hs
  obtain ⟨hinv, hpost, hfails⟩ := hx s hs
  rw [run_rethrow]
  rcases hrun : x.run s with ⟨_ | _, _⟩ <;> rw [hrun] at hinv hpost hfails
  · exact ⟨hinv, fun _ hb => (nomatch hb), fun _ he => Except.error.inj he ▸ hrename _ (hfails _ rfl)⟩
  · exact ⟨hinv, hpost, fun _ he => nomatch he⟩

end Respects

end

end DocumentQuery
