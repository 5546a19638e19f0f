import DocumentQuery.Plan.Reduction
import DocumentQuery.Proofs.Ordering.Documents

/-!
# The first document of an order

A minimum can be read off the first document in ascending order of a field, and a maximum off the first
one in descending order. `Document.first?` picks the first document of a list without sorting it, one
document after the other, as the extrema of values are picked. The two meet here: picking documents and
picking their values is the same on documents in the order of their paths (`extreme?_map`), and the
document that is picked is the head of the sorted list (`head?_sort`).

The first of the smallest values belongs to the first path and the last of the greatest values to the last
path. So the direction of the order decides between equal values as well, because paths are compared in
the direction of the last field.

Both are instances of one argument, in which one of two is picked over and over (`foldl_pick`). Documents in
the order of their paths are assumed where values are picked, because the store goes through a collection in
this order; no other order of the documents has to agree.
-/

namespace DocumentQuery

/-- Picking one of two over and over picks one of all, which precedes all if the picked one precedes both
every time. -/
theorem foldl_pick {α : Type} {R : α → α → Prop} {pick : α → α → α} (hrefl : ∀ a, R a a)
    (htrans : ∀ a b c, R a b → R b c → R a c)
    (hpick : ∀ a b, (pick a b = a ∨ pick a b = b) ∧ R (pick a b) a ∧ R (pick a b) b) (x : α)
    (xs : List α) :
    xs.foldl pick x ∈ x :: xs ∧ ∀ y ∈ x :: xs, R (xs.foldl pick x) y := by
  induction xs generalizing x with
  | nil =>
    refine ⟨List.mem_singleton_self x, fun y hy => ?_⟩
    rw [List.mem_singleton.mp hy]
    exact hrefl x
  | cons z xs ih =>
    -- the rest is folded from the pick of `x` and `z` on, which precedes both
    obtain ⟨hone, hx, hz⟩ := hpick x z
    obtain ⟨hmem, hall⟩ := ih (pick x z)
    have hfirst := hall _ List.mem_cons_self
    rw [List.foldl_cons]
    refine ⟨?_, fun y hy => ?_⟩
    · rcases List.mem_cons.mp hmem with h | h
      · rcases hone with hone | hone <;> rw [h, hone]
        · exact List.mem_cons_self
        · exact List.mem_cons_of_mem _ List.mem_cons_self
      · exact List.mem_cons_of_mem _ (List.mem_cons_of_mem _ h)
    · rcases List.mem_cons.mp hy with rfl | hy
      · exact htrans _ _ _ hfirst hx
      rcases List.mem_cons.mp hy with rfl | hy
      · exact htrans _ _ _ hfirst hz
      · exact hall y (List.mem_cons_of_mem _ hy)

namespace Document

/-- The one of two documents that comes first. Of two equal ones it is the one on the left. -/
def earlier (os : List StoreOrder) (a b : Document) : Document :=
  if notAfter os a b then a else b

/-- The first document in an order. -/
def first? (os : List StoreOrder) : List Document → Option Document
  | [] => none
  | d :: ds => some (ds.foldl (earlier os) d)

/-- No document comes after itself. -/
theorem notAfter_refl (os : List StoreOrder) (d : Document) : notAfter os d d = true := by
  have h : (notAfter os d d || notAfter os d d) = true := notAfter_total d d
  rwa [Bool.or_self] at h

/-- The earlier one is one of the two, and comes before both. -/
theorem earlier_spec (os : List StoreOrder) (a b : Document) :
    (earlier os a b = a ∨ earlier os a b = b) ∧ notAfter os (earlier os a b) a = true ∧
      notAfter os (earlier os a b) b = true := by
  unfold earlier
  split
  next h => exact ⟨.inl rfl, notAfter_refl os a, h⟩
  next h =>
    have hback : notAfter os b a = true :=
      (Bool.or_eq_true_iff.mp (notAfter_total a b)).resolve_left h
    exact ⟨.inr rfl, hback, notAfter_refl os b⟩

/-- The first document is one of the documents, and no other one comes before it. -/
theorem first?_eq_some {os : List StoreOrder} {ds : List Document} {d : Document}
    (h : first? os ds = some d) : d ∈ ds ∧ ∀ e ∈ ds, notAfter os d e = true := by
  cases ds with
  | nil => exact nomatch h
  | cons c ds =>
    cases h
    exact foldl_pick (notAfter_refl os) (fun a b c => notAfter_trans a b c) (earlier_spec os) c ds

/-- There is a first document unless there is none at all. -/
theorem first?_eq_none {os : List StoreOrder} {ds : List Document} (h : first? os ds = none) :
    ds = [] := by
  cases ds with
  | nil => rfl
  | cons c ds => exact nomatch h

/-- Among documents at distinct paths, the one that comes before all others is the first. -/
theorem first?_of_forall {os : List StoreOrder} {ds : List Document} {d : Document}
    (hd : DistinctPaths ds) (hmem : d ∈ ds) (hall : ∀ e ∈ ds, notAfter os d e = true) :
    first? os ds = some d := by
  cases h : first? os ds with
  | none =>
    rw [first?_eq_none h] at hmem
    exact absurd hmem List.not_mem_nil
  | some e =>
    obtain ⟨he, hfirst⟩ := first?_eq_some h
    exact congrArg some <|
      hd.eq_of_path_eq he hmem (path_eq_of_notAfter (hfirst d hmem) (hall e he))

/-- The first document is the head of the sorted list. -/
theorem head?_sort {os : List StoreOrder} {ds : List Document} (hd : DistinctPaths ds) :
    (sort os ds).head? = first? os ds := by
  have hsorted := sort_sorted os ds
  have hperm := sort_perm os ds
  cases hs : sort os ds with
  | nil =>
    rw [hs] at hperm
    rw [← hperm.nil_eq]
    rfl
  | cons c cs =>
    rw [hs] at hsorted hperm
    refine (first?_of_forall hd (hperm.subset List.mem_cons_self) fun e he => ?_).symm
    rcases List.mem_cons.mp (hperm.symm.subset he) with rfl | he
    · exact notAfter_refl os e
    · exact List.rel_of_pairwise_cons hsorted he

/-! ## Values of a field -/

/-- The value of a document in a field; a missing field counts as null. -/
def valueAt (path : String) (d : Document) : Json :=
  (d.field? path).getD .null

/-- Of two documents in the order of their paths, the first one comes first unless its value is greater. -/
theorem notAfter_ascending {path : String} {a b : Document} (h : a.path < b.path) :
    notAfter [⟨path, .ascending⟩] a b = !((a.valueAt path).order (b.valueAt path) == .gt) := by
  have hpath : compare a.path b.path = .lt := if_pos h
  have horder : order [⟨path, .ascending⟩] a b =
      (((a.valueAt path).order (b.valueAt path)).then .eq).then (compare a.path b.path) := rfl
  rw [notAfter, horder, hpath]
  cases (a.valueAt path).order (b.valueAt path) <;> rfl

/-- In descending order the first one comes first only if its value is greater. -/
theorem notAfter_descending {path : String} {a b : Document} (h : a.path < b.path) :
    notAfter [⟨path, .descending⟩] a b = ((a.valueAt path).order (b.valueAt path) == .gt) := by
  have hpath : compare b.path a.path = .gt := by
    rw [Std.OrientedOrd.eq_swap (a := b.path), show compare a.path b.path = .lt from if_pos h]
    rfl
  have horder : order [⟨path, .descending⟩] a b =
      (((b.valueAt path).order (a.valueAt path)).then .eq).then (compare b.path a.path) := rfl
  rw [notAfter, horder, hpath, ← Json.order_swap]
  cases (a.valueAt path).order (b.valueAt path) <;> rfl

end Document

namespace Json

/-- The extreme of values that comes first in an order. -/
def extreme? : Direction → List Json → Option Json
  | .ascending => least?
  | .descending => greatest?

/-- One step of picking an extreme. -/
def better (direction : Direction) (best v : Json) : Json :=
  match direction with
  | .ascending => if best.order v == .gt then v else best
  | .descending => if best.order v == .gt then best else v

/-- The extreme of several values is picked step by step. -/
theorem extreme?_cons (direction : Direction) (v : Json) (vs : List Json) :
    extreme? direction (v :: vs) = some (vs.foldl (better direction) v) := by
  cases direction <;> rfl

/-- The extreme of at most one value is the value. -/
theorem extreme?_toList (direction : Direction) (v : Option Json) :
    extreme? direction v.toList = v := by
  cases v <;> cases direction <;> rfl

/-- Whether a value comes no later than another in an order. -/
def Precedes (direction : Direction) (a b : Json) : Prop :=
  match direction with
  | .ascending => (a.order b).isLE
  | .descending => (b.order a).isLE

theorem precedes_refl (direction : Direction) (a : Json) : Precedes direction a a := by
  have h : a.order a = .eq := Std.ReflCmp.compare_self
  cases direction <;> simp [Precedes, h]

/-- Not coming later is transitive in both directions. -/
theorem precedes_trans (direction : Direction) (a b c : Json) (hab : Precedes direction a b)
    (hbc : Precedes direction b c) : Precedes direction a c := by
  cases direction
  · exact Std.TransCmp.isLE_trans hab hbc
  · exact Std.TransCmp.isLE_trans hbc hab

/-- Values neither of which comes later are equal in the ordering of the store. -/
theorem order_eq_of_precedes {direction : Direction} {a b : Json} (hab : Precedes direction a b)
    (hba : Precedes direction b a) : a.order b = .eq := by
  cases direction
  · exact Std.OrientedCmp.isLE_antisymm hab hba
  · exact Std.OrientedCmp.isLE_antisymm hba hab

/-- The better one of two values is one of them, and comes no later than either. -/
theorem better_spec (direction : Direction) (a b : Json) :
    (better direction a b = a ∨ better direction a b = b) ∧
      Precedes direction (better direction a b) a ∧ Precedes direction (better direction a b) b := by
  have hswap := order_swap a b
  have ha := precedes_refl direction a
  have hb := precedes_refl direction b
  cases direction <;> cases h : a.order b <;> rw [h] at hswap <;>
    simp_all [better, Precedes, ← hswap]

/-- The extreme is one of the values, and comes before all others. -/
theorem extreme?_eq_some {direction : Direction} {vs : List Json} {v : Json}
    (h : extreme? direction vs = some v) : v ∈ vs ∧ ∀ u ∈ vs, Precedes direction v u := by
  cases vs with
  | nil => cases direction <;> exact nomatch h
  | cons w vs =>
    rw [extreme?_cons] at h
    cases h
    exact foldl_pick (precedes_refl direction) (precedes_trans direction) (better_spec direction) w vs

/-- The extremes of the same values in another arrangement are equal in the ordering of the store. -/
theorem extreme?_perm {direction : Direction} {vs us : List Json} (p : vs.Perm us) {v : Json}
    (h : extreme? direction vs = some v) :
    ∃ u, extreme? direction us = some u ∧ v.order u = .eq := by
  obtain ⟨hv, hvall⟩ := extreme?_eq_some h
  cases hu : extreme? direction us with
  | none =>
    cases us with
    | nil => exact absurd (p.subset hv) List.not_mem_nil
    | cons w us =>
      rw [extreme?_cons] at hu
      exact nomatch hu
  | some u =>
    obtain ⟨hmem, hall⟩ := extreme?_eq_some hu
    exact ⟨u, rfl, order_eq_of_precedes (hvall u (p.symm.subset hmem)) (hall v (p.subset hv))⟩

/-- Picking the value of one of two documents is picking the document. -/
theorem better_valueAt (direction : Direction) {path : String} {a b : Document} (h : a.path < b.path) :
    better direction (a.valueAt path) (b.valueAt path) =
      (Document.earlier [⟨path, direction⟩] a b).valueAt path := by
  cases direction with
  | ascending =>
    rw [Document.earlier, Document.notAfter_ascending h, better]
    cases (a.valueAt path).order (b.valueAt path) == .gt <;> rfl
  | descending =>
    rw [Document.earlier, Document.notAfter_descending h, better]
    cases (a.valueAt path).order (b.valueAt path) == .gt <;> rfl

/-- The extreme of the values of documents in the order of their paths is the value of the first one. For
equal values the two pick alike, the first for a minimum and the last for a maximum. -/
theorem extreme?_map (direction : Direction) (path : String) {ds : List Document}
    (h : ds.Pairwise fun a b => a.path < b.path) :
    extreme? direction (ds.map (·.valueAt path)) =
      (Document.first? [⟨path, direction⟩] ds).map (·.valueAt path) := by
  cases ds with
  | nil => cases direction <;> rfl
  | cons d ds =>
    rw [List.map_cons, extreme?_cons]
    refine congrArg some ?_
    induction ds generalizing d with
    | nil => rfl
    | cons e ds ih =>
      obtain ⟨hd, hrest⟩ := List.pairwise_cons.mp h
      have hde := hd e List.mem_cons_self
      rw [List.map_cons, List.foldl_cons, List.foldl_cons, better_valueAt direction hde]
      refine ih _ (List.pairwise_cons.mpr ⟨fun f hf => ?_, hrest.tail⟩)
      -- the better one is followed by the rest, whichever it is
      rcases (Document.earlier_spec [⟨path, direction⟩] d e).1 with hpick | hpick <;> rw [hpick]
      · exact hd f (List.mem_cons_of_mem _ hf)
      · exact List.rel_of_pairwise_cons hrest hf

end Json

end DocumentQuery
