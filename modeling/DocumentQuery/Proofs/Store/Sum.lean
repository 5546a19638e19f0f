import DocumentQuery.Store.Sum
import Mathlib.Algebra.BigOperators.Group.List.Basic
import Mathlib.Algebra.Order.BigOperators.Group.List
import Mathlib.Algebra.Order.Ring.Int
import Mathlib.Data.List.Infix

/-!
# Sums of integers

Integers are added from left to right, and they are added exactly as long as every partial sum fits a signed
64-bit word (`Number.addIntegers_eq_some_iff`). It is not enough that the sum itself fits: a partial sum may
leave the range and come back, and then all numbers are added as doubles (`Number.sum_overflowing`). Whether
this happens depends on the order of the numbers.

Among all orders of the same integers the partial sums lie between the sum of the negative ones and the sum of
the others, and both are reached. So the order makes no difference as long as these two sums fit
(`Number.sum_integers`).

The words of the range are those of a signed 64-bit integer. A number of a document may be a larger integer or
a double, and then the sum is one of doubles from the start; the statements here are about numbers that all
fit.
-/

namespace DocumentQuery.Number

variable {x total acc : Int} {xs part : List Int}

/-! ## Signed 64-bit words -/

/-- A number fits if it is neither below nor above the range. -/
theorem fitsSigned_iff : fitsSigned x = true ↔ -signedBound ≤ x ∧ x < signedBound := by
  rw [fitsSigned, Bool.and_eq_true, decide_eq_true_iff, decide_eq_true_iff]

/-- What lies between two numbers that fit, fits. -/
theorem fitsSigned_between {low high : Int} (hlow : fitsSigned low = true) (hhigh : fitsSigned high = true)
    (hle : low ≤ x) (hge : x ≤ high) : fitsSigned x = true := by
  rw [fitsSigned_iff] at hlow hhigh ⊢
  omega

/-- A number that fits is read as itself. -/
theorem toSigned?_int (h : fitsSigned x = true) : (Number.int x).toSigned? = some x :=
  if_pos (fitsSigned_iff.mp h).2

/-! ## Partial sums -/

/-- Adding integers to a number that fits succeeds as long as all partial sums fit, and then it is exact. -/
theorem addIntegers_eq_some_iff (hacc : fitsSigned acc = true) (hxs : ∀ x ∈ xs, fitsSigned x = true) :
    addIntegers acc (xs.map .int) = some total ↔
      (∀ part, part <+: xs → fitsSigned (acc + part.sum) = true) ∧ total = acc + xs.sum := by
  induction xs generalizing acc with
  | nil =>
    constructor
    · rintro ⟨⟩
      refine ⟨fun part hpart => ?_, (Int.add_zero _).symm⟩
      rw [List.prefix_nil.mp hpart, List.sum_nil, Int.add_zero]
      exact hacc
    · rintro ⟨-, rfl⟩
      exact congrArg some (Int.add_zero acc).symm
  | cons x xs ih =>
    rw [List.map_cons, addIntegers, toSigned?_int (hxs x List.mem_cons_self)]
    dsimp only
    by_cases hx : fitsSigned (acc + x) = true
    · rw [if_pos hx, ih hx fun y hy => hxs y (List.mem_cons_of_mem x hy), List.sum_cons, ← Int.add_assoc]
      refine and_congr_left fun _ => ⟨fun h part hpart => ?_, fun h part hpart => ?_⟩
      · rcases List.prefix_cons_iff.mp hpart with rfl | ⟨rest, rfl, hrest⟩
        · rw [List.sum_nil, Int.add_zero]
          exact hacc
        · rw [List.sum_cons, ← Int.add_assoc]
          exact h rest hrest
      · have hcons := h (x :: part) (List.cons_prefix_cons.mpr ⟨rfl, hpart⟩)
        rwa [List.sum_cons, ← Int.add_assoc] at hcons
    · -- the first partial sum is too large already
      rw [if_neg hx]
      refine ⟨nofun, fun h => absurd ?_ hx⟩
      have hfirst := h.1 [x] (List.cons_prefix_cons.mpr ⟨rfl, List.nil_prefix⟩)
      rwa [List.sum_singleton] at hfirst

/-- A sum is an integer only when it was added exactly: doubles and null are no integers. -/
theorem sum_eq_int_iff {ns : List Number} : sum ns = .int total ↔ addIntegers 0 ns = some total := by
  unfold sum
  cases addIntegers 0 ns with
  | some exact =>
    show Json.num (.int exact) = Json.num (.int total) ↔ _
    rw [Json.num.injEq, Number.int.injEq, Option.some.injEq]
  | none =>
    refine ⟨fun h => ?_, nofun⟩
    dsimp only [Json.ofFloat, ofFloat?] at h
    split at h <;> cases h

/-- The sum of integers is exact as long as all partial sums fit. -/
theorem sum_eq_sum_iff (hxs : ∀ x ∈ xs, fitsSigned x = true) :
    sum (xs.map .int) = .int xs.sum ↔ ∀ part, part <+: xs → fitsSigned part.sum = true := by
  rw [sum_eq_int_iff, addIntegers_eq_some_iff (by decide) hxs]
  simp only [Int.zero_add, and_true]

/-! ## Orders -/

/-- A sum is that of the others and that of the negative numbers. -/
theorem sum_eq_filter_add_filter (xs : List Int) :
    xs.sum = (xs.filter (0 ≤ ·)).sum + (xs.filter (· < 0)).sum := by
  have hneg : (fun x : Int => decide (x < 0)) = fun x => !decide (0 ≤ x) := by
    funext x
    rw [← decide_not, decide_eq_decide, Int.not_le]
  rw [hneg, ← List.sum_append]
  exact (List.filter_append_perm _ xs).sum_eq.symm

/-- The negative numbers add up to no more than 0. -/
theorem sum_filter_neg_le (xs : List Int) : (xs.filter (· < 0)).sum ≤ 0 := by
  induction xs with
  | nil => exact Int.le_refl 0
  | cons x xs ih =>
    by_cases hx : x < 0
    · rw [List.filter_cons, if_pos (decide_eq_true hx), List.sum_cons]
      omega
    · rw [List.filter_cons, if_neg (by simpa using hx)]
      exact ih

/-- The others add up to no less. -/
theorem sum_filter_nonneg (xs : List Int) : 0 ≤ (xs.filter (0 ≤ ·)).sum :=
  List.sum_nonneg fun x hx => by simpa using (List.mem_filter.mp hx).2

/-- A partial sum lies between the sum of the negative numbers and the sum of the others. -/
theorem sum_between_of_prefix (h : part <+: xs) :
    (xs.filter (· < 0)).sum ≤ part.sum ∧ part.sum ≤ (xs.filter (0 ≤ ·)).sum := by
  obtain ⟨rest, rfl⟩ := h
  have hneg := sum_filter_neg_le rest
  have hneg' := sum_filter_neg_le part
  have hpos := sum_filter_nonneg rest
  have hpos' := sum_filter_nonneg part
  rw [sum_eq_filter_add_filter part, List.filter_append, List.filter_append, List.sum_append, List.sum_append]
  omega

/-- Signed 64-bit integers are summed exactly as long as every partial sum fits a signed 64-bit word. They are
summed exactly in every order as long as the sum of the negative ones and the sum of the others fit.

Both are equivalences: where a partial sum does not fit, the result is another one, since it is then a double.
The numbers have to fit one by one. -/
theorem sum_integers (hxs : ∀ x ∈ xs, fitsSigned x = true) :
    (sum (xs.map .int) = .int xs.sum ↔ ∀ part, part <+: xs → fitsSigned part.sum = true) ∧
      ((∀ ys : List Int, ys.Perm xs → sum (ys.map .int) = .int xs.sum) ↔
        fitsSigned (xs.filter (· < 0)).sum = true ∧ fitsSigned (xs.filter (0 ≤ ·)).sum = true) := by
  refine ⟨sum_eq_sum_iff hxs, fun h => ?_, fun ⟨hneg, hpos⟩ ys hperm => ?_⟩
  · have hfits (p : Int → Bool) : fitsSigned (xs.filter p).sum = true := by
      -- the order that begins with the chosen numbers has their sum as a partial sum
      have hperm := List.filter_append_perm p xs
      have hexact := h _ hperm
      rw [← hperm.sum_eq] at hexact
      exact (sum_eq_sum_iff fun x hx => hxs x (hperm.mem_iff.mp hx)).mp hexact _ (List.prefix_append _ _)
    exact ⟨hfits _, hfits _⟩
  · rw [← hperm.sum_eq, sum_eq_sum_iff fun x hx => hxs x (hperm.mem_iff.mp hx)]
    intro part hpart
    obtain ⟨hlow, hhigh⟩ := sum_between_of_prefix hpart
    rw [(hperm.filter _).sum_eq] at hlow hhigh
    exact fitsSigned_between hneg hpos hlow hhigh

/-- The largest signed word, with one taken away before it is added again. -/
theorem sum_integers_borrowed :
    (∀ x ∈ [9223372036854775807, -1, 1], fitsSigned x = true) ∧
      sum [.int 9223372036854775807, .int (-1), .int 1] = .int 9223372036854775807 := by
  have hxs : ∀ x ∈ [9223372036854775807, -1, 1], fitsSigned x = true := by decide
  refine ⟨hxs, (sum_integers hxs).1.mpr fun part hpart => ?_⟩
  have hall : ∀ part ∈ [9223372036854775807, -1, 1].inits, fitsSigned part.sum = true := by decide
  exact hall part ((List.mem_inits _ _).mpr hpart)

/-- The same numbers in another order: one more than the largest signed word is no signed word, so they are
not summed exactly, although their sum fits. -/
theorem sum_overflowing :
    (∀ x ∈ [9223372036854775807, 1, -1], fitsSigned x = true) ∧
      fitsSigned [9223372036854775807, 1, -1].sum = true ∧
      sum ([9223372036854775807, 1, -1].map .int) ≠ .int [9223372036854775807, 1, -1].sum ∧
      sum ([1, -1, 9223372036854775807].map .int) = .int [9223372036854775807, 1, -1].sum := by
  refine ⟨by decide, by decide, fun h => ?_, by rfl⟩
  have hsome : addIntegers 0 ([9223372036854775807, 1, -1].map .int) = some _ := sum_eq_int_iff.mp h
  have hnone : addIntegers 0 ([9223372036854775807, 1, -1].map .int) = none := by decide
  exact nomatch hsome.symm.trans hnone

end DocumentQuery.Number
