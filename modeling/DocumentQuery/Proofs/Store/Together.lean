import DocumentQuery.Store.Connection

/-!
# Branches that are started together

What two branches do is what the first one does and then the second one (`run_together_of_ok`). If the first
one fails, the second one is not started, unless the two are started together and the first one is left
waiting (`run_together_of_error`). So a rule for branches asks of the second one what it asks of a
continuation, but of a continuation that may also be entered after a failure of the first one.

The rules themselves stand beside the others of their kind, with what is asked of computations.
-/

namespace DocumentQuery

variable {σ α β : Type} [Awaiting σ] {x : ExceptT Failure (StateM σ) α} {s s' : σ} {e : Failure}

/-- Whether a run was left waiting between two states. -/
def LeftWaiting (s s' : σ) : Prop :=
  Awaiting.waiting s = false ∧ Awaiting.waiting s' = true

/-- The second branch is started where the first one has succeeded. -/
theorem run_together_of_ok (parallel : Bool) {a : α} (y : ExceptT Failure (StateM σ) β)
    (h : x.run s = (.ok a, s')) :
    (together parallel x y).run s = ((y.run s').1.map (a, ·), (y.run s').2) := by
  unfold together
  rw [ExceptT.run_mk, h]
  dsimp only
  rcases y.run s' with ⟨_ | _, _⟩ <;> rfl

/-- The second branch goes on while the first one is left waiting. -/
theorem run_together_of_waiting (y : ExceptT Failure (StateM σ) β) (h : x.run s = (.error e, s'))
    (hw : LeftWaiting s s') : (together true x y).run s = match y.run s' with
      | (.ok _, s'') => (.error e, s'')
      | (.error e', s'') => (.error e', Awaiting.giveUp s'') := by
  unfold together
  rw [ExceptT.run_mk, h]
  dsimp only
  rw [hw.1, hw.2]
  rfl

/-- After a failure the second branch is not started, unless the first one was left waiting. -/
theorem run_together_of_settled {parallel : Bool} (y : ExceptT Failure (StateM σ) β)
    (h : x.run s = (.error e, s')) (hw : parallel = false ∨ ¬LeftWaiting s s') :
    (together parallel x y).run s = (.error e, s') := by
  have hcondition : (parallel && !Awaiting.waiting s && Awaiting.waiting s') = false := by
    rw [Bool.eq_false_iff]
    intro htrue
    rw [Bool.and_eq_true, Bool.and_eq_true, Bool.not_eq_true'] at htrue
    rcases hw with hw | hw
    · exact nomatch hw.symm.trans htrue.1.1
    · exact hw ⟨htrue.1.2, htrue.2⟩
  unfold together
  rw [ExceptT.run_mk, h]
  dsimp only
  rw [hcondition]
  rfl

/-- A failure of the first branch is that of both, in the state after the first one or after both; or the
second one fails meanwhile and what was left waiting is given up. -/
theorem run_together_of_error (parallel : Bool) (y : ExceptT Failure (StateM σ) β)
    (h : x.run s = (.error e, s')) :
    (together parallel x y).run s = (.error e, s') ∨ LeftWaiting s s' ∧
      ((∃ b, (y.run s').1 = .ok b ∧ (together parallel x y).run s = (.error e, (y.run s').2)) ∨
        ∃ e', (y.run s').1 = .error e' ∧
          (together parallel x y).run s = (.error e', Awaiting.giveUp (y.run s').2)) := by
  cases parallel with
  | false => exact Or.inl (run_together_of_settled y h (Or.inl rfl))
  | true =>
    by_cases hw : LeftWaiting s s'
    · rw [run_together_of_waiting y h hw]
      refine Or.inr ⟨hw, ?_⟩
      rcases y.run s' with ⟨e' | b, s''⟩
      · exact Or.inr ⟨e', rfl, rfl⟩
      · exact Or.inl ⟨b, rfl, rfl⟩
    · exact Or.inl (run_together_of_settled y h (Or.inr hw))

end DocumentQuery
