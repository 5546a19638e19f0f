import DocumentQuery.Plan.Basic

/-!
# Windows that are applied twice

The store cuts the documents it sends, and the window is applied once more to what arrives. The first cut
is `Window.sent`. It loses nothing the window keeps (`Window.apply_sent`), because the documents skipped
later are sent too, as long as there are no more documents than a count can tell.

A list may also be taken apart by conditions, each part be cut by the store, and the parts be put together
again before the window is applied. This is harmless for a window that keeps the front of the list or
its tail, and for one that keeps the front of a tail it is not: cutting the front of the tail of a part
may drop documents that belong to the tail of the whole. `Window.Splits` says which windows are harmless,
and `Window.Splits.apply_union` that they are. The others are harmful indeed
(`Window.apply_union_of_not_splits`).

The number of documents must be a count, because what the store is asked for, the kept and the skipped ones
together, is cut off at the largest count. Nothing else is assumed of the counts of a window; limits of 0 and
tails that are longer than the list are windows like any other.
-/

namespace DocumentQuery

namespace Document

variable {n : Nat} {ds : List Document} {p : Document → Bool} {d : Document}

/-! ## The first and the last documents -/

/-- There are as many last documents as are asked for, or as there are. -/
theorem length_takeLast : (takeLast n ds).length = min n ds.length := by
  rw [takeLast, List.length_drop]
  omega

theorem length_takeLast_le : (takeLast n ds).length ≤ n :=
  Nat.le_trans (Nat.le_of_eq length_takeLast) (Nat.min_le_left _ _)

theorem takeLast_of_length_le (h : ds.length ≤ n) : takeLast n ds = ds := by
  rw [takeLast, Nat.sub_eq_zero_of_le h, List.drop_zero]

/-- The last documents of a list are those of its end. -/
theorem takeLast_append (as bs : List Document) (h : n ≤ bs.length) :
    takeLast n (as ++ bs) = takeLast n bs := by
  rw [takeLast, takeLast, List.length_append, List.drop_append]
  have hnil : as.drop (as.length + bs.length - n) = [] := List.drop_of_length_le (by omega)
  rw [hnil, List.nil_append]
  congr 1
  omega

/-- The last documents are documents of the list. -/
theorem mem_of_mem_takeLast (h : d ∈ takeLast n ds) : d ∈ ds :=
  List.mem_of_mem_drop h

/-- A part of a list consists of a part of its front and a part of the rest. -/
theorem filter_split (p : Document → Bool) (n : Nat) (ds : List Document) :
    ds.filter p = (ds.take n).filter p ++ (ds.drop n).filter p := by
  rw [← List.filter_append, List.take_append_drop]

/-- A document among the first of a list is among the first of every part of the list it belongs to. -/
theorem mem_take_filter (h : d ∈ ds.take n) (hp : p d = true) : d ∈ (ds.filter p).take n := by
  have hlen : ((ds.take n).filter p).length ≤ n :=
    Nat.le_trans (List.length_filter_le _ _) (List.length_take_le _ _)
  rw [filter_split p n ds, List.take_append, List.take_of_length_le hlen]
  exact List.mem_append_left _ (List.mem_filter.mpr ⟨h, hp⟩)

/-- A document among the last of a list is among the last of every part of the list it belongs to. -/
theorem mem_takeLast_filter (h : d ∈ takeLast n ds) (hp : p d = true) :
    d ∈ takeLast n (ds.filter p) := by
  have hsplit : ds.filter p = (ds.take (ds.length - n)).filter p ++ (takeLast n ds).filter p :=
    filter_split p (ds.length - n) ds
  have hlen : ((takeLast n ds).filter p).length ≤ n :=
    Nat.le_trans (List.length_filter_le _ _) length_takeLast_le
  rw [hsplit, takeLast, List.length_append, List.drop_append]
  refine List.mem_append_right _ ?_
  rw [Nat.sub_eq_zero_of_le (by omega), List.drop_zero]
  exact List.mem_filter.mpr ⟨h, hp⟩

/-- A part with all first documents of a list has the same first documents. -/
theorem take_filter_of_forall (h : ∀ d ∈ ds.take n, p d = true) :
    (ds.filter p).take n = ds.take n := by
  rw [filter_split p n ds, List.filter_eq_self.mpr h]
  rcases Nat.le_total n ds.length with hn | hn
  · exact List.take_left' (List.length_take_of_le hn)
  · rw [List.drop_of_length_le hn, List.filter_nil, List.append_nil, List.take_take, Nat.min_self]

/-- A part with all last documents of a list has the same last documents. -/
theorem takeLast_filter_of_forall (h : ∀ d ∈ takeLast n ds, p d = true) :
    takeLast n (ds.filter p) = takeLast n ds := by
  have hsplit : ds.filter p = (ds.take (ds.length - n)).filter p ++ takeLast n ds :=
    (filter_split p (ds.length - n) ds).trans (congrArg _ (List.filter_eq_self.mpr h))
  rw [hsplit]
  rcases Nat.le_total n ds.length with hn | hn
  · rw [takeLast_append _ _ (by rw [length_takeLast]; omega),
      takeLast_of_length_le length_takeLast_le]
  · rw [Nat.sub_eq_zero_of_le hn, List.take_zero, List.filter_nil, List.nil_append,
      takeLast_of_length_le length_takeLast_le]

end Document

namespace Window

variable {w : Window} {ds : List Document}

/-! ## What the store sends -/

/-- The part of a list that the store sends for a window. It does not skip, and it sends as many more as are
skipped later. -/
def sent (w : Window) (documents : List Document) : List Document :=
  applyLimit w.serverLimit (applyTail w.limitToLast documents)

/-- The store cuts a list to what it sends for the window of the selection. -/
theorem cut_queryFor (collectionPath : String) (s : Selection) (filter : Option StoreFilter)
    (documents : List Document) :
    (Source.queryFor collectionPath s filter).cut documents = s.window.sent documents := by
  simp only [StoreQuery.cut, Source.queryFor, sent, applyLimit, applyTail]
  cases s.window.limitToLast <;> cases s.window.serverLimit <;> rfl

/-- What is sent is in the list. -/
theorem mem_of_mem_sent {d : Document} (h : d ∈ w.sent ds) : d ∈ ds := by
  have htail : d ∈ applyTail w.limitToLast ds := by
    unfold sent at h
    cases hlimit : w.serverLimit with
    | none => rwa [hlimit] at h
    | some k =>
      rw [hlimit] at h
      exact List.mem_of_mem_take h
  cases hlast : w.limitToLast with
  | none => rwa [hlast] at htail
  | some n =>
    rw [hlast] at htail
    exact Document.mem_of_mem_takeLast htail

/-- A tail adds no document. -/
theorem length_applyTail_le (tail : Option Nat) (documents : List Document) :
    (applyTail tail documents).length ≤ documents.length := by
  cases tail with
  | none => exact Nat.le_refl _
  | some n => exact Nat.le_trans (Nat.le_of_eq Document.length_takeLast) (Nat.min_le_right _ _)

/-- Cutting to the last documents changes nothing in the front of such a cut. -/
theorem applyTail_take (tail : Option Nat) (m : Nat) (documents : List Document) :
    applyTail tail ((applyTail tail documents).take m) = (applyTail tail documents).take m := by
  cases tail with
  | none => rfl
  | some n =>
    refine Document.takeLast_of_length_le ?_
    rw [List.length_take, applyTail, Document.length_takeLast]
    omega

/-- Cutting to the last documents twice is cutting once. -/
theorem applyTail_applyTail (tail : Option Nat) (documents : List Document) :
    applyTail tail (applyTail tail documents) = applyTail tail documents := by
  have h := applyTail_take tail (applyTail tail documents).length documents
  rwa [List.take_length] at h

/-- The page behind the skipped documents is decided by as many documents as are kept and skipped. -/
theorem take_drop_take_saturate {α : Type} (limit skip : Nat) {xs : List α}
    (h : xs.length ≤ Number.maxCount) :
    ((xs.take (saturate (limit + skip))).drop skip).take limit = (xs.drop skip).take limit := by
  rw [List.drop_take, List.take_take]
  rcases Nat.le_total (limit + skip) Number.maxCount with hs | hs
  · rw [saturate, Nat.min_eq_left hs, Nat.add_sub_cancel, Nat.min_self]
  · rw [saturate, Nat.min_eq_right hs]
    -- the list is too short for the cut to matter
    have hlen : (xs.drop skip).length ≤ Number.maxCount - skip := by
      rw [List.length_drop]
      omega
    rw [← List.take_take, List.take_of_length_le hlen]

/-- The store sends everything the window keeps, so applying the window to what was sent gives what it keeps
of the whole list. -/
theorem apply_sent (h : ds.length ≤ Number.maxCount) : w.apply (w.sent ds) = w.apply ds := by
  unfold apply sent serverLimit
  cases w.limit with
  | none => simp only [Option.map_none, applyLimit, applyTail_applyTail]
  | some k =>
    have hlen := Nat.le_trans (length_applyTail_le w.limitToLast ds) h
    simp only [Option.map_some, applyLimit, applyTail_take, take_drop_take_saturate k w.skip hlen]

/-! ## Parts of a list -/

/-- The windows that keep the front of the list, or its tail, but not merely the front of its tail. -/
def Splits (w : Window) : Prop :=
  ∀ n k, w.limitToLast = some n → w.limit = some k → k = 0 ∨ n ≤ k + w.skip

instance (w : Window) : Decidable w.Splits :=
  match hn : w.limitToLast, hk : w.limit with
  | some n, some k => decidable_of_iff (k = 0 ∨ n ≤ k + w.skip)
      ⟨fun h _ _ hn' hk' => by cases hn.symm.trans hn'; cases hk.symm.trans hk'; exact h,
        fun h => h n k hn hk⟩
  | none, _ => isTrue fun _ _ hn' => by cases hn.symm.trans hn'
  | _, none => isTrue fun _ _ _ hk' => by cases hk.symm.trans hk'

/-- A limit of 0 keeps nothing. -/
theorem apply_of_limit_zero (h : w.limit = some 0) (documents : List Document) :
    w.apply documents = [] := by
  simp [apply, applyLimit, h, Document.takeLast]

/-- The store sends the front of the list, or its tail. -/
theorem Splits.sent_eq (h : w.Splits) (hk : w.limit ≠ some 0) :
    (∃ m, ∀ ds : List Document, ds.length ≤ Number.maxCount → w.sent ds = ds.take m) ∨
      ∃ n, ∀ ds : List Document, ds.length ≤ Number.maxCount →
        w.sent ds = Document.takeLast n ds := by
  unfold sent serverLimit
  cases htail : w.limitToLast with
  | none =>
    left
    cases hlimit : w.limit with
    | none => exact ⟨Number.maxCount, fun ds hds => (List.take_of_length_le hds).symm⟩
    | some k => exact ⟨saturate (k + w.skip), fun ds _ => rfl⟩
  | some n =>
    right
    refine ⟨n, fun ds hds => ?_⟩
    cases hlimit : w.limit with
    | none => rfl
    | some k =>
      have hn : n ≤ k + w.skip := (h n k htail hlimit).resolve_left fun h0 => hk (h0 ▸ hlimit)
      refine List.take_of_length_le ?_
      rw [applyTail, Document.length_takeLast]
      simp only [saturate]
      omega

/-- Taking a list apart, cutting every part and putting together what is left leaves everything the window
keeps. The parts may overlap, but they must cover the list. -/
theorem Splits.apply_union {union : Document → Bool} (h : w.Splits) (parts : List (Document → Bool))
    (hds : ds.length ≤ Number.maxCount) (hcover : ∀ d ∈ ds, ∃ p ∈ parts, p d = true)
    (hunion : ∀ p ∈ parts, ∀ d ∈ w.sent (ds.filter p), union d = true) :
    w.apply (ds.filter union) = w.apply ds := by
  by_cases hk : w.limit = some 0
  · rw [apply_of_limit_zero hk, apply_of_limit_zero hk]
  have hlen (p : Document → Bool) : (ds.filter p).length ≤ Number.maxCount :=
    Nat.le_trans (List.length_filter_le _ _) hds
  -- a document that the store sends of the whole is sent of every part it belongs to
  rw [← apply_sent (hlen union), ← apply_sent hds]
  rcases h.sent_eq hk with ⟨m, hsent⟩ | ⟨n, hsent⟩
  · rw [hsent _ (hlen union), hsent _ hds, Document.take_filter_of_forall]
    intro d hd
    obtain ⟨p, hp, hpd⟩ := hcover d (List.mem_of_mem_take hd)
    exact hunion p hp d (hsent _ (hlen p) ▸ Document.mem_take_filter hd hpd)
  · rw [hsent _ (hlen union), hsent _ hds, Document.takeLast_filter_of_forall]
    intro d hd
    obtain ⟨p, hp, hpd⟩ := hcover d (Document.mem_of_mem_takeLast hd)
    exact hunion p hp d (hsent _ (hlen p) ▸ Document.mem_takeLast_filter hd hpd)

/-- The front of a tail is not decided by the fronts of the tails of the parts. A document that is followed
by as many others as the tail is long is not in the tail, but it is when too few of the others are sent. -/
theorem apply_union_of_not_splits {n k : Nat} {d : Document} {union : Document → Bool} (hk : 0 < k)
    (hkn : k < n) (hlen : ds.length = n) (hd : d ∉ ds) (hunion : union d = true)
    (hfew : (ds.filter union).length ≤ k) :
    d ∈ apply ⟨0, some k, some n, false⟩ ((d :: ds).filter union) ∧
      d ∉ apply ⟨0, some k, some n, false⟩ (d :: ds) := by
  constructor
  · have hall : Document.takeLast n ((d :: ds).filter union) = d :: ds.filter union := by
      rw [List.filter_cons_of_pos hunion]
      refine Document.takeLast_of_length_le ?_
      rw [List.length_cons]
      omega
    obtain ⟨k, rfl⟩ := Nat.exists_eq_add_of_lt hk
    simp [apply, applyLimit, applyTail, hall]
  · intro h
    have htail : Document.takeLast n (d :: ds) = ds := by
      rw [← List.singleton_append, Document.takeLast_append _ _ (Nat.le_of_eq hlen.symm)]
      exact Document.takeLast_of_length_le (Nat.le_of_eq hlen)
    simp only [apply, applyLimit, applyTail, htail] at h
    exact hd (List.mem_of_mem_drop (List.mem_of_mem_take h))

end Window

end DocumentQuery
