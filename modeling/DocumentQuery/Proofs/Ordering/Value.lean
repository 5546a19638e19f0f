import DocumentQuery.Store.Comparison

/-!
# The ordering of values

`Json.order` mixes kinds, numbers read as doubles, texts, lexicographic lists and the sizes of objects.
This module shows that it is a total preorder: turning the operands around turns the answer around
(`order_swap`), and it is transitive. Both are packed as the instance `Std.TransCmp Json.order`, so
that every law of comparisons in the library applies to it.

Transitivity alone does not go through the induction on lists: whether the first items of two lists
are equal or less decides whether the rest is looked at. `order_chain` therefore says exactly what the
comparison of the ends is, and is proved for items and for lists of items together.

The kinds come first: values of different kinds are ordered by kind alone, so each law is split into a case of
different kinds, proved once for all of them, and one case for each kind.
-/

namespace DocumentQuery

/-- Two steps in one direction are one step, strict as soon as one of them is. -/
theorem compare_chain {α : Type} (cmp : α → α → Ordering) [Std.TransCmp cmp] {a b c : α}
    (hab : (cmp a b).isLE) (hbc : (cmp b c).isLE) : cmp a c = (cmp a b).then (cmp b c) := by
  cases h : cmp a b with
  | lt => exact Std.TransCmp.lt_of_lt_of_isLE h hbc
  | eq => exact Std.TransCmp.congr_left h
  | gt => simp [h] at hab

/-- Not being greater is transitive. -/
theorem compare_ne_gt_trans {α : Type} {cmp : α → α → Ordering} [Std.TransCmp cmp] {a b c : α}
    (hab : cmp a b ≠ .gt) (hbc : cmp b c ≠ .gt) : cmp a c ≠ .gt := by
  simp only [Ordering.ne_gt_iff_isLE] at hab hbc ⊢
  exact Std.TransCmp.isLE_trans hab hbc

namespace Json

/-! ## Values of different kinds -/

/-- Values of different kinds are ordered by kind. -/
theorem order_of_rank_ne {a b : Json} (h : a.rank ≠ b.rank) :
    a.order b = compare a.rank b.rank := by
  cases a <;> cases b <;> first | rfl | exact absurd rfl h

theorem order_swap_of_rank_ne {a b : Json} (h : a.rank ≠ b.rank) :
    (a.order b).swap = b.order a := by
  rw [order_of_rank_ne h, order_of_rank_ne h.symm]
  exact Std.OrientedOrd.eq_swap.symm

/-- A value that is not after another is not of a later kind. -/
theorem rank_le_of_order {a b : Json} (h : (a.order b).isLE) : a.rank ≤ b.rank := by
  by_cases hr : a.rank = b.rank
  · exact Nat.le_of_eq hr
  · rw [order_of_rank_ne hr] at h
    exact Nat.isLE_compare.mp h

/-- If the ends of a chain are of different kinds, the step that leaves the first kind is strict. -/
theorem order_chain_of_rank_ne {a b c : Json} (h : a.rank ≠ c.rank) (hab : (a.order b).isLE)
    (hbc : (b.order c).isLE) : a.order c = (a.order b).then (b.order c) := by
  have hb := rank_le_of_order hab
  have hc := rank_le_of_order hbc
  rw [order_of_rank_ne h, Nat.compare_eq_lt.mpr (by omega)]
  by_cases hr : a.rank = b.rank
  · have hlt : b.order c = .lt := by
      rw [order_of_rank_ne (by omega), Nat.compare_eq_lt.mpr (by omega)]
    rw [hlt]
    cases hab' : a.order b with
    | lt => rfl
    | eq => rfl
    | gt => simp [hab'] at hab
  · rw [order_of_rank_ne hr, Nat.compare_eq_lt.mpr (by omega)]
    rfl

/-! ## Turning the operands around -/

mutual

/-- The ordering turns around with its operands. -/
theorem order_swap : (a b : Json) → (a.order b).swap = b.order a
  | .null, b => by
    cases b with
    | null => rfl
    | _ => exact order_swap_of_rank_ne (by simp [rank])
  | .bool x, b => by
    cases b with
    | bool y => exact Std.OrientedOrd.eq_swap.symm
    | _ => exact order_swap_of_rank_ne (by simp [rank])
  | .num x, b => by
    cases b with
    | num y => exact Std.OrientedOrd.eq_swap.symm
    | _ => exact order_swap_of_rank_ne (by simp [rank])
  | .str x, b => by
    cases b with
    | str y => exact Std.OrientedOrd.eq_swap.symm
    | _ => exact order_swap_of_rank_ne (by simp [rank])
  | .arr xs, b => by
    cases b with
    | arr ys => simpa only [order] using orderItems_swap xs ys
    | _ => exact order_swap_of_rank_ne (by simp [rank])
  | .obj xs, b => by
    cases b with
    | obj ys => exact Std.OrientedOrd.eq_swap.symm
    | _ => exact order_swap_of_rank_ne (by simp [rank])

/-- The ordering of lists turns around with its operands. -/
theorem orderItems_swap : (as bs : List Json) → (orderItems as bs).swap = orderItems bs as
  | [], [] => rfl
  | [], _ :: _ => rfl
  | _ :: _, [] => rfl
  | a :: as, b :: bs => by
    rw [orderItems, orderItems, Ordering.swap_then, order_swap a b, orderItems_swap as bs]

end

/-! ## Transitivity -/

/-- A chain whose ends are of one kind never leaves that kind. -/
theorem rank_eq_of_chain {a b c : Json} (h : a.rank = c.rank) (hab : (a.order b).isLE)
    (hbc : (b.order c).isLE) : b.rank = c.rank := by
  have hb := rank_le_of_order hab
  have hc := rank_le_of_order hbc
  omega

/-- Chains of values of one kind, given what chains of lists are. -/
theorem order_chain_of_rank_eq {a b c : Json} (hab : a.rank = b.rank) (hbc : b.rank = c.rank)
    (items : ∀ as bs cs, a = .arr as → (orderItems as bs).isLE → (orderItems bs cs).isLE →
      orderItems as cs = (orderItems as bs).then (orderItems bs cs))
    (h₁ : (a.order b).isLE) (h₂ : (b.order c).isLE) :
    a.order c = (a.order b).then (b.order c) := by
  cases a <;> cases b <;> simp [rank] at hab <;> cases c <;> simp [rank] at hbc
  case null.null.null => rfl
  case bool.bool.bool => exact compare_chain compare h₁ h₂
  case num.num.num a b c =>
    exact compare_chain (compare (α := Int)) h₁ h₂
  case str.str.str => exact compare_chain compare h₁ h₂
  case arr.arr.arr as bs cs =>
    simp only [order] at h₁ h₂ ⊢
    exact items as bs cs rfl h₁ h₂
  case obj.obj.obj => exact compare_chain compare h₁ h₂

/-- The step of the induction on lists: the first items decide, and if they do not, the rest does. -/
theorem then_chain {ab bc ac xy yz xz : Ordering} (h₁ : (ab.then xy).isLE) (h₂ : (bc.then yz).isLE)
    (hac : ab.isLE → bc.isLE → ac = ab.then bc) (hxz : xy.isLE → yz.isLE → xz = xy.then yz) :
    ac.then xz = (ab.then xy).then (bc.then yz) := by
  cases ab <;> cases bc <;> cases xy <;> simp_all

mutual

/-- What the comparison of the ends of a chain of values is. -/
theorem order_chain : (a b c : Json) → (a.order b).isLE → (b.order c).isLE →
    a.order c = (a.order b).then (b.order c)
  | a, b, c => fun hab hbc => by
    -- values of one kind are compared by what they hold, others by their kinds alone
    by_cases h : a.rank = c.rank
    · have hb := rank_eq_of_chain h hab hbc
      refine order_chain_of_rank_eq (h.trans hb.symm) hb ?_ hab hbc
      intro as bs cs ha
      subst ha
      exact orderItems_chain as bs cs
    · exact order_chain_of_rank_ne h hab hbc

/-- What the comparison of the ends of a chain of lists is. -/
theorem orderItems_chain : (as bs cs : List Json) → (orderItems as bs).isLE →
    (orderItems bs cs).isLE → orderItems as cs = (orderItems as bs).then (orderItems bs cs)
  | [], [], _ => by simp [orderItems]
  | [], b :: bs, [] => by simp [orderItems]
  | [], _ :: _, _ :: _ => by simp [orderItems]
  | _ :: _, [], _ => by simp [orderItems]
  | _ :: _, _ :: _, [] => by simp [orderItems]
  | a :: as, b :: bs, c :: cs => fun hab hbc => by
    rw [orderItems] at hab hbc ⊢
    exact then_chain hab hbc (order_chain a b c) (orderItems_chain as bs cs)

end

instance : Std.TransCmp order where
  eq_swap := (order_swap _ _).symm
  isLE_trans {a b c} hab hbc := by
    rw [order_chain a b c hab hbc, Ordering.isLE_then_iff_and]
    exact ⟨hab, Or.inr hbc⟩

end Json

end DocumentQuery
