import Mathlib.Data.List.Forall2

/-!
# Lists

Lists that correspond item by item, and lists of bindings. Two runs are compared through the lists they went
through, so what is needed of a correspondence is that a member has a counterpart, that equal images give equal
lists, and that two correspondences with one list can be put together.
-/

namespace DocumentQuery

/-- Of lists that correspond one by one, every member of the first has a counterpart. -/
theorem exists_of_forall₂ {α β : Type} {R : α → β → Prop} {as : List α} {bs : List β}
    (h : List.Forall₂ R as bs) {a : α} (ha : a ∈ as) : ∃ b ∈ bs, R a b := by
  induction h with
  | nil => exact absurd ha List.not_mem_nil
  | cons hr _ ih =>
    rcases List.mem_cons.mp ha with rfl | ha
    · exact ⟨_, List.mem_cons_self, hr⟩
    · obtain ⟨b, hb, hr⟩ := ih ha
      exact ⟨b, List.mem_cons_of_mem _ hb, hr⟩

/-- Lists that correspond one by one are mapped to the same list, if corresponding members are mapped to
the same. -/
theorem map_eq_map_of_forall₂ {α β γ : Type} {R : α → β → Prop} {as : List α} {bs : List β}
    (h : List.Forall₂ R as bs) {f : α → γ} {g : β → γ}
    (hfg : ∀ a ∈ as, ∀ b ∈ bs, R a b → f a = g b) : as.map f = bs.map g := by
  induction h with
  | nil => rfl
  | cons hr _ ih =>
    rw [List.map_cons, List.map_cons, hfg _ List.mem_cons_self _ List.mem_cons_self hr,
      ih fun a ha b hb => hfg a (List.mem_cons_of_mem _ ha) b (List.mem_cons_of_mem _ hb)]

/-- Two lists that correspond to a third one can be paired. -/
theorem exists_pairs_of_forall₂ {α β γ : Type} {R : α → β → Prop} {S : α → γ → Prop} {as : List α}
    {bs : List β} {cs : List γ} (h : List.Forall₂ R as bs) (h' : List.Forall₂ S as cs) :
    ∃ pairs : List (β × γ), bs = pairs.map Prod.fst ∧ cs = pairs.map Prod.snd ∧
      ∀ p ∈ pairs, ∃ a ∈ as, R a p.1 ∧ S a p.2 := by
  induction h generalizing cs with
  | nil =>
    cases h'
    exact ⟨[], rfl, rfl, fun _ hp => (by cases hp)⟩
  | @cons a b _ _ hr _ ih =>
    cases h' with
    | @cons _ c _ _ hs hrest =>
      obtain ⟨pairs, rfl, rfl, hpairs⟩ := ih hrest
      refine ⟨(b, c) :: pairs, rfl, rfl, fun p hp => ?_⟩
      rcases List.mem_cons.mp hp with rfl | hp
      · exact ⟨a, List.mem_cons_self, hr, hs⟩
      · obtain ⟨a', ha', hrest⟩ := hpairs p hp
        exact ⟨a', List.mem_cons_of_mem _ ha', hrest⟩

/-- A value that is found under a name is bound to it. -/
theorem mem_of_lookup {α β : Type} [BEq α] [LawfulBEq α] {bindings : List (α × β)} {a : α} {b : β}
    (h : bindings.lookup a = some b) : (a, b) ∈ bindings := by
  obtain ⟨before, after, rfl, -⟩ := List.lookup_eq_some_iff.mp h
  exact List.mem_append_right _ List.mem_cons_self

end DocumentQuery
