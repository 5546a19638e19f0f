import Mathlib.Data.List.Forall2

/-!
# Computations that succeed, and why others fail

A computation that may fail is a chain of steps. The first lemmas take a chain that succeeded apart into
steps that succeeded, so that no proof has to look at the ways in which it fails.

Where the ways in which it fails are what matters, they are described by a property that every failure of
every step has. `Except.FailsOnly` follows the same structure: a chain fails only in the given ways if
each of its steps does, whatever the steps before it have returned.

Both kinds of lemmas are used instead of unfolding a chain, so that a proof about a function mentions its
steps and not the monad they are in. A step that is added to a function is one more hypothesis of the same
form.
-/

namespace DocumentQuery

namespace Except

variable {ε ε' α β : Type}

/-- A chain of two steps succeeds if the first one does and the second one does with its result. -/
theorem bind_eq_ok {x : Except ε α} {f : α → Except ε β} {b : β} :
    x >>= f = .ok b ↔ ∃ a, x = .ok a ∧ f a = .ok b := by
  cases x with
  | error e => simp [bind, Except.bind]
  | ok a => simp [bind, Except.bind]

/-- It fails as its first step fails, or as its second one does with the result of the first. -/
theorem bind_eq_error {x : Except ε α} {f : α → Except ε β} {e : ε} :
    x >>= f = .error e ↔ x = .error e ∨ ∃ a, x = .ok a ∧ f a = .error e := by
  cases x with
  | error e' => simp [bind, Except.bind]
  | ok a => simp [bind, Except.bind]

/-- What is made of a result succeeds if there is a result to make it of. -/
theorem map_eq_ok {x : Except ε α} {f : α → β} {b : β} :
    x.map f = .ok b ↔ ∃ a, x = .ok a ∧ f a = b := by
  cases x with
  | error e => simp [Except.map]
  | ok a => simp [Except.map]

/-- It fails as there is no result. -/
theorem map_eq_error {x : Except ε α} {f : α → β} {e : ε} : x.map f = .error e ↔ x = .error e := by
  cases x with
  | error e' => simp [Except.map]
  | ok a => simp [Except.map]

/-- Failures that are translated leave successes. -/
theorem mapError_eq_ok {x : Except ε α} {f : ε → ε'} {a : α} :
    x.mapError f = .ok a ↔ x = .ok a := by
  cases x with
  | error e => constructor <;> intro h <;> cases h
  | ok b => constructor <;> intro h <;> cases h <;> rfl

/-- A result that there is, is the result. -/
theorem mem_toOption {x : Except ε α} {a : α} : a ∈ x.toOption ↔ x = .ok a := by
  cases x <;> simp [Except.toOption]

/-- Steps that succeed one by one succeed together. -/
theorem mapM_eq_ok {f : α → Except ε β} {g : α → β} {xs : List α} (h : ∀ x ∈ xs, f x = .ok (g x)) :
    xs.mapM f = .ok (xs.map g) := by
  induction xs with
  | nil => rfl
  | cons x xs ih =>
    rw [List.mapM_cons, h x List.mem_cons_self, ih fun y hy => h y (List.mem_cons_of_mem x hy)]
    rfl

/-- Steps that do nothing succeed. -/
theorem mapM_ok (xs : List α) : xs.mapM (Except.ok : α → Except ε α) = .ok xs :=
  (mapM_eq_ok fun _ _ => rfl).trans (congrArg Except.ok (List.map_id xs))

/-- Steps that agree on the members of a list agree on the list. -/
theorem mapM_congr {f g : α → Except ε β} {xs : List α} (h : ∀ x ∈ xs, f x = g x) :
    xs.mapM f = xs.mapM g := by
  induction xs with
  | nil => rfl
  | cons x xs ih =>
    rw [List.mapM_cons, List.mapM_cons, h x List.mem_cons_self,
      ih fun y hy => h y (List.mem_cons_of_mem x hy)]

/-- Steps succeed together if each of them does. -/
theorem mapM_eq_ok_iff {f : α → Except ε β} {xs : List α} {ys : List β} :
    xs.mapM f = .ok ys ↔ List.Forall₂ (fun x y => f x = .ok y) xs ys := by
  induction xs generalizing ys with
  | nil =>
    rw [List.mapM_nil, List.forall₂_nil_left_iff]
    exact ⟨fun h => (Except.ok.inj h).symm, fun h => h ▸ rfl⟩
  | cons x xs ih =>
    rw [List.mapM_cons, bind_eq_ok, List.forall₂_cons_left_iff]
    refine exists_congr fun y => ?_
    rw [bind_eq_ok, ← exists_and_left]
    refine exists_congr fun rest => ?_
    rw [ih]
    exact and_congr_right fun _ => and_congr_right fun _ =>
      ⟨fun h => (Except.ok.inj h).symm, fun h => h ▸ rfl⟩

/-- Two rounds of steps succeed if the steps made of both do. -/
theorem mapM_mapM_eq_ok {γ : Type} {f : α → Except ε β} {g : β → Except ε γ} {xs : List α}
    {zs : List γ} :
    (∃ ys, xs.mapM f = .ok ys ∧ ys.mapM g = .ok zs) ↔ xs.mapM (fun x => f x >>= g) = .ok zs := by
  simp only [mapM_eq_ok_iff, bind_eq_ok]
  induction xs generalizing zs with
  | nil => simp only [List.forall₂_nil_left_iff, exists_eq_left]
  | cons x xs ih =>
    simp only [List.forall₂_cons_left_iff, ← ih]
    constructor
    · rintro ⟨_, ⟨y, ys, hy, hys, rfl⟩, h⟩
      obtain ⟨z, zs, hz, hzs, rfl⟩ := List.forall₂_cons_left_iff.mp h
      exact ⟨z, zs, ⟨y, hy, hz⟩, ⟨ys, hys, hzs⟩, rfl⟩
    · rintro ⟨z, zs, ⟨y, hy, hz⟩, ⟨ys, hys, hzs⟩, rfl⟩
      exact ⟨y :: ys, ⟨y, ys, hy, hys, rfl⟩, .cons hz hzs⟩

/-- Steps succeed together exactly if each of them does. -/
theorem exists_mapM_eq_ok {f : α → Except ε β} {xs : List α} :
    (∃ ys, xs.mapM f = .ok ys) ↔ ∀ x ∈ xs, ∃ y, f x = .ok y := by
  simp only [mapM_eq_ok_iff]
  induction xs with
  | nil => simp [List.forall₂_nil_left_iff]
  | cons x xs ih =>
    rw [List.forall_mem_cons, ← ih]
    constructor
    · rintro ⟨_, h⟩
      obtain ⟨y, ys, hy, hys, -⟩ := List.forall₂_cons_left_iff.mp h
      exact ⟨⟨y, hy⟩, ⟨ys, hys⟩⟩
    · rintro ⟨⟨y, hy⟩, ⟨ys, hys⟩⟩
      exact ⟨y :: ys, .cons hy hys⟩

/-- Steps that succeed together succeed one by one. -/
theorem mem_of_mapM_eq_ok {f : α → Except ε β} {xs : List α} {ys : List β} (h : xs.mapM f = .ok ys)
    {y : β} (hy : y ∈ ys) : ∃ x ∈ xs, f x = .ok y := by
  induction xs generalizing ys with
  | nil =>
    cases h
    cases hy
  | cons x xs ih =>
    rw [List.mapM_cons] at h
    obtain ⟨first, hfirst, h⟩ := bind_eq_ok.mp h
    obtain ⟨rest, hrest, h⟩ := bind_eq_ok.mp h
    cases h
    rcases List.mem_cons.mp hy with rfl | hy
    · exact ⟨x, List.mem_cons_self, hfirst⟩
    · obtain ⟨x', hx', hf⟩ := ih hrest hy
      exact ⟨x', List.mem_cons_of_mem x hx', hf⟩

/-- A check succeeds if there is nothing to be found fault with, and then the rest is left. -/
theorem check_eq_ok {c : Prop} [Decidable c] {e : ε} {rest : PUnit → Except ε α} {a : α} :
    (if c then (throw e : Except ε PUnit) >>= rest else rest ⟨⟩) = .ok a ↔ ¬c ∧ rest ⟨⟩ = .ok a := by
  split
  next h => exact ⟨fun hr => (nomatch hr), fun hr => absurd h hr.1⟩
  next h => exact (and_iff_right h).symm

/-! ## Failures -/

variable {fails : ε → Prop}

/-- A result that is no other failure than given ones. It says nothing of results that are successes, and does
not say that there is a failure. -/
def FailsOnly (fails : ε → Prop) (r : Except ε α) : Prop :=
  ∀ e, r = .error e → fails e

/-- A success is no failure. -/
theorem failsOnly_ok (a : α) : FailsOnly fails (.ok a) :=
  fun _ h => nomatch h

/-- A failure is one of the given ones if it is. -/
theorem failsOnly_error {e : ε} (h : fails e) : FailsOnly fails (.error e : Except ε α) :=
  fun _ he => Except.error.inj he ▸ h

/-- What fails only in given ways fails only in more ways. -/
theorem FailsOnly.imp {fails' : ε → Prop} {r : Except ε α} (hr : FailsOnly fails r)
    (h : ∀ e, fails e → fails' e) : FailsOnly fails' r :=
  fun e he => h e (hr e he)

/-- A chain fails only in given ways if both steps do, the second one for every result of the first. -/
theorem FailsOnly.bind {r : Except ε α} {f : α → Except ε β} (hr : FailsOnly fails r)
    (hf : ∀ a, r = .ok a → FailsOnly fails (f a)) : FailsOnly fails (r >>= f) := by
  intro e he
  cases r with
  | error e' => exact hr e (by cases he; rfl)
  | ok a => exact hf a rfl e he

/-- A check that may fail, before the rest. -/
theorem failsOnly_check {c : Prop} [Decidable c] {e : ε} {rest : PUnit → Except ε α} (he : fails e)
    (hrest : FailsOnly fails (rest ⟨⟩)) :
    FailsOnly fails (if c then (throw e : Except ε PUnit) >>= rest else rest ⟨⟩) := by
  split
  · exact failsOnly_error he
  · exact hrest

/-- What is made of a result fails as the result does. -/
theorem FailsOnly.map {r : Except ε α} (hr : FailsOnly fails r) (f : α → β) :
    FailsOnly fails (r.map f) := by
  intro e he
  cases r with
  | error e' => exact hr e (by cases he; rfl)
  | ok a => exact nomatch he

/-- Failures that are translated are translations of given ones. -/
theorem FailsOnly.mapError {fails' : ε' → Prop} {r : Except ε α} {f : ε → ε'}
    (hr : FailsOnly fails r) (hf : ∀ e, fails e → fails' (f e)) : FailsOnly fails' (r.mapError f) := by
  intro e he
  cases r with
  | error e' =>
    cases he
    exact hf e' (hr e' rfl)
  | ok a => exact nomatch he

/-- Steps that each fail only in given ways do so together. -/
theorem failsOnly_mapM {f : α → Except ε β} {xs : List α} (h : ∀ x ∈ xs, FailsOnly fails (f x)) :
    FailsOnly fails (xs.mapM f) := by
  induction xs with
  | nil => exact failsOnly_ok []
  | cons x xs ih =>
    rw [List.mapM_cons]
    refine (h x List.mem_cons_self).bind fun y _ => ?_
    exact (ih fun z hz => h z (List.mem_cons_of_mem x hz)).bind fun ys _ => failsOnly_ok (y :: ys)

/-- A fold whose steps each fail only in given ways does so as well. -/
theorem failsOnly_foldlM {f : β → α → Except ε β} {xs : List α} {b : β}
    (h : ∀ b, ∀ x ∈ xs, FailsOnly fails (f b x)) : FailsOnly fails (xs.foldlM f b) := by
  induction xs generalizing b with
  | nil => exact failsOnly_ok b
  | cons x xs ih =>
    rw [List.foldlM_cons]
    refine (h b x List.mem_cons_self).bind fun next _ => ?_
    exact ih fun b z hz => h b z (List.mem_cons_of_mem x hz)

end Except

end DocumentQuery
