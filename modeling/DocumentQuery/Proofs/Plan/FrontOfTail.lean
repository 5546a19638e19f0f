import DocumentQuery.Proofs.Plan.Emulation
import Mathlib.Data.List.Perm.Subperm

/-!
# Queries for the front of a tail

A query with a disjunction that asks for the front of a tail depends on whether the store knows
disjunctions. Here it is shown that this is so for every such query, whatever the lengths of the tail and of
its front: there is always a store that answers the two ways differently (`fetch_ne_of_not_splits`). So
the condition under which both ways are known to agree, `Window.Splits`, cannot be weakened.

The store holds one note that is tagged `x` and, behind it, as many notes that are tagged `y` as the tail is
long. The tail of all of them leaves out the first note. But it is also the tail of the notes that are tagged
`x`, so it is sent for that tag; and for the other tag only the front of the tail is sent, which is too short
to push the first note out of the tail of the union.

The notes are stored under identities that are repetitions of one letter, so that any number of them is in
order and the first note comes before all others. All have one rank, and the ordering by rank leaves them as
they are stored; the query is then decided by lengths alone.
-/

namespace DocumentQuery

namespace Store

/-! ## A crowded store -/

/-- The note that is tagged `x`. It has the least identity, so it is the first of all. -/
def crowdFirst : Document :=
  ⟨Document.pathOf "notes" "a", .obj [("rank", .int 0), ("tag", .str "x")]⟩

/-- The identity of a later note. All are made of the same letter, so the longer ones come later. -/
def crowdId (i : Nat) : String :=
  String.ofList (List.replicate (i + 2) 'a')

/-- The `n` later notes, which are tagged `y` and have the same rank. -/
def crowdRest (n : Nat) : List Document :=
  (List.range n).map fun i =>
    ⟨Document.pathOf "notes" (crowdId i), .obj [("rank", .int 0), ("tag", .str "y")]⟩

/-- A store with these notes. -/
def crowd (nativeOr : Bool) (n : Nat) : Store where
  collections :=
    [("notes", ("a", .obj [("rank", .int 0), ("tag", .str "x")]) ::
      (List.range n).map fun i => (crowdId i, .obj [("rank", .int 0), ("tag", .str "y")]))]
  nativeOr := nativeOr
  calls := .zero
  queries := []

/-- Of two repetitions of a letter, the longer one comes later. -/
theorem ofList_replicate_lt {i j : Nat} (h : i < j) (c : Char) :
    String.ofList (List.replicate i c) < String.ofList (List.replicate j c) := by
  obtain ⟨k, rfl⟩ := Nat.exists_eq_add_of_lt h
  show (String.ofList _).toList < (String.ofList _).toList
  rw [String.toList_ofList, String.toList_ofList, Nat.add_assoc, List.replicate_add]
  conv_lhs => rw [← List.append_nil (List.replicate i c)]
  exact List.append_left_lt (List.nil_lt_cons _ _)

variable {n : Nat}

/-- The identities are different and in order. -/
theorem crowd_wellFormed (nativeOr : Bool) (n : Nat) : (crowd nativeOr n).WellFormed := by
  intro collection documents h
  simp only [crowd, List.lookup_cons, List.lookup_nil] at h
  split at h
  · cases h
    refine List.pairwise_cons.mpr ⟨fun row hrow => ?_, ?_⟩
    · obtain ⟨i, -, rfl⟩ := List.mem_map.mp hrow
      have hlt : 1 < i + 2 := by omega
      exact ofList_replicate_lt hlt 'a'
    · refine List.pairwise_map.mpr (List.pairwise_lt_range.imp fun {i j} hij => ?_)
      have hlt : i + 2 < j + 2 := by omega
      exact ofList_replicate_lt hlt 'a'
  · cases h

/-- The documents of the crowd are the first note and the others behind it. -/
theorem crowd_documents (nativeOr : Bool) (n : Nat) :
    (crowd nativeOr n).documents "notes" = crowdFirst :: crowdRest n := by
  show _ :: List.map _ (List.map _ _) = _
  rw [List.map_map]
  rfl

theorem length_crowdRest : (crowdRest n).length = n := by
  rw [crowdRest, List.length_map, List.length_range]

/-- The first note is none of the others. -/
theorem crowdFirst_not_mem (n : Nat) : crowdFirst ∉ crowdRest n := by
  intro h
  obtain ⟨i, -, heq⟩ := List.mem_map.mp h
  have hdata := congrArg Document.data heq
  simp [crowdFirst] at hdata

theorem crowdRest_nodup : (crowdRest n).Nodup := by
  have hall := ((crowd_wellFormed true n).distinctPaths "notes").nodup
  rw [crowd_documents] at hall
  exact (List.nodup_cons.mp hall).2

theorem crowd_rank {d : Document} (h : d ∈ crowdFirst :: crowdRest n) :
    d.field? "rank" = some (.int 0) := by
  rcases List.mem_cons.mp h with rfl | h
  · rfl
  · obtain ⟨i, -, rfl⟩ := List.mem_map.mp h
    rfl

/-! ## The tagged notes -/

/-- One note is tagged `x`. -/
theorem crowd_tagged_x : (crowdFirst :: crowdRest n).filter
    (StoreFilter.allAccept · [.compare "tag" .equalTo (.str "x")]) = [crowdFirst] := by
  have hrest : (crowdRest n).filter
      (StoreFilter.allAccept · [.compare "tag" .equalTo (.str "x")]) = [] := by
    refine List.filter_eq_nil_iff.mpr fun d hd => ?_
    obtain ⟨i, -, rfl⟩ := List.mem_map.mp hd
    exact Bool.false_ne_true
  rw [List.filter_cons_of_pos rfl, hrest]

/-- All others are tagged `y`. -/
theorem crowd_tagged_y : (crowdFirst :: crowdRest n).filter
    (StoreFilter.allAccept · [.compare "tag" .equalTo (.str "y")]) = crowdRest n := by
  rw [List.filter_cons_of_neg Bool.false_ne_true]
  refine List.filter_eq_self.mpr fun d hd => ?_
  obtain ⟨i, -, rfl⟩ := List.mem_map.mp hd
  rfl

end Store

namespace BoundQuery

open Store (crowd crowdFirst crowdRest)

variable {c : Cardinality} {n k : Nat}

/-! ## What is selected and what is sent -/

/-- The query for the last `n` notes by rank that are tagged with one of two tags, or for an element of
these. -/
def tailOf (c : Cardinality) (n : Nat) : BoundQuery :=
  { firstOfTail with limitToLast := some n, cardinality := c }

/-- The windows of these queries that do not split keep the front of the tail. -/
theorem window_of_not_splits (hw : ¬(tailOf c n).selection.window.Splits) :
    ∃ k, 0 < k ∧ k < n ∧ (tailOf c n).selection.window = ⟨0, some k, some n, false⟩ := by
  cases c with
  | sequence => exact absurd (fun _ _ _ hk => nomatch hk) hw
  | last orDefault => exact absurd (fun _ _ _ hk => nomatch hk) hw
  | first orDefault =>
    refine ⟨1, Nat.one_pos, Nat.lt_of_not_le fun hn => hw ?_, rfl⟩
    rintro _ _ ⟨⟩ ⟨⟩
    exact .inr hn
  | single orDefault =>
    refine ⟨2, Nat.two_pos, Nat.lt_of_not_le fun hn => hw ?_, rfl⟩
    rintro _ _ ⟨⟩ ⟨⟩
    exact .inr hn

/-- The notes have one rank, so they are in order as they are stored. -/
theorem crowd_sorted (nativeOr : Bool) :
    Document.Sorted (tailOf c n).selection.orderBy ((crowd nativeOr n).documents "notes") := by
  refine List.Pairwise.imp_of_mem (fun {a b} ha hb hlt => ?_)
    ((Store.crowd_wellFormed nativeOr n).documents_ascending "notes")
  rw [Store.crowd_documents] at ha hb
  have hpath : compare a.path b.path = .lt := if_pos hlt
  have hrank : StoreOrder.order ⟨"rank", .ascending⟩ a b = .eq := by
    simp only [StoreOrder.order, Store.crowd_rank ha, Store.crowd_rank hb]
    rfl
  show Document.notAfter [⟨"rank", .ascending⟩] a b = true
  simp [Document.notAfter, Document.order, Document.orderByFields, Document.orderByPath, hrank, hpath]

/-- All notes are selected. -/
theorem crowd_selected (nativeOr : Bool) :
    (tailOf c n).selection.selected (crowd nativeOr n) "notes" = crowdFirst :: crowdRest n := by
  have hadmits : ∀ d ∈ crowdFirst :: crowdRest n, (tailOf c n).selection.admits d = true := by
    intro d hd
    rcases List.mem_cons.mp hd with rfl | hd
    · rfl
    · obtain ⟨i, -, rfl⟩ := List.mem_map.mp hd
      rfl
  have hsorted : Document.Sorted (tailOf c n).selection.orderBy _ := crowd_sorted nativeOr
  rw [Store.crowd_documents] at hsorted
  rw [Selection.selected, Store.crowd_documents, List.filter_eq_self.mpr hadmits,
    Document.sort_of_sorted hsorted]

/-- A note is sent when it is sent for its tag. -/
theorem isSent_crowd_iff {d : Document} :
    Source.IsSent (crowd false n) "notes" (tailOf c n).selection d ↔
      d ∈ (tailOf c n).selection.window.sent [crowdFirst] ∨
        d ∈ (tailOf c n).selection.window.sent (crowdRest n) := by
  have hexpand : Condition.expandAll (tailOf c n).selection.conditions =
      [[.compare "tag" .equalTo (.str "x")], [.compare "tag" .equalTo (.str "y")]] := rfl
  simp only [Source.IsSent, hexpand, crowd_selected, List.mem_cons, List.not_mem_nil, or_false,
    exists_eq_or_imp, exists_eq_left, Store.crowd_tagged_x, Store.crowd_tagged_y]

/-- The first note is sent, and of the others no more than are asked for. -/
theorem isSent_crowd (hk : 0 < k) (hkn : k < n)
    (hw : (tailOf c n).selection.window = ⟨0, some k, some n, false⟩) :
    Source.IsSent (crowd false n) "notes" (tailOf c n).selection crowdFirst ∧
      ∀ d ∈ crowdRest n, Source.IsSent (crowd false n) "notes" (tailOf c n).selection d →
        d ∈ (crowdRest n).take k := by
  -- no part is longer than the tail, so the store sends the front of it
  have hsent (ds : List Document) (h : ds.length ≤ n) :
      (tailOf c n).selection.window.sent ds = ds.take (saturate k) := by
    simp only [hw, Window.sent, Window.serverLimit, Window.applyTail, Window.applyLimit,
      Option.map_some, Nat.add_zero, Document.takeLast_of_length_le h]
  have hone : [crowdFirst].length ≤ saturate k := by
    have hmax : 0 < Number.maxCount := by decide
    simp only [saturate, List.length_singleton]
    omega
  have hfirst := hsent [crowdFirst] (by rw [List.length_singleton]; omega)
  have hrest := hsent (crowdRest n) (Nat.le_of_eq Store.length_crowdRest)
  constructor
  · rw [isSent_crowd_iff, hfirst, List.take_of_length_le hone]
    exact .inl (List.mem_singleton_self _)
  · intro d hd hisSent
    rw [isSent_crowd_iff, hfirst, hrest] at hisSent
    rcases hisSent with h | h
    · rw [List.mem_singleton.mp (List.mem_of_mem_take h)] at hd
      exact absurd hd (Store.crowdFirst_not_mem n)
    · exact List.take_subset_take_left _ (Nat.min_le_left _ _) h

/-! ## The two ways -/

/-- A query with a disjunction for the front of a tail brings other documents from some store with
disjunctions than from the same store without them. The tail and its front may have any lengths, so long as
the first is longer and can be counted. -/
theorem fetch_ne_of_not_splits (hn : n < Number.maxCount)
    (hw : ¬(tailOf c n).selection.window.Splits) :
    ∃ (s : Store) (fetched fetched' : Fetched), s.WellFormed ∧
      (((tailOf c n).fetch .standard).run (.ofStore { s with nativeOr := true })).1 = .ok fetched ∧
      (((tailOf c n).fetch .standard).run (.ofStore { s with nativeOr := false })).1 = .ok fetched' ∧
      fetched ≠ fetched' := by
  classical
  obtain ⟨k, hk, hkn, hwindow⟩ := window_of_not_splits hw
  obtain ⟨hfirst, hrest⟩ := isSent_crowd hk hkn hwindow
  let sel := (tailOf c n).selection
  let union (d : Document) : Bool := decide (Source.IsSent (crowd false n) "notes" sel d)
  have htail : sel.window.limitToLast.isSome → sel.orderBy ≠ [] := fun _ => List.cons_ne_nil _ _
  have hfew : ((crowdRest n).filter union).length ≤ k := by
    refine Nat.le_trans (List.Subperm.length_le (List.subperm_of_subset
      (Store.crowdRest_nodup.filter union) fun d hd => ?_)) (List.length_take_le k (crowdRest n))
    obtain ⟨hd, hsent⟩ := List.mem_filter.mp hd
    exact hrest d hd (of_decide_eq_true hsent)
  obtain ⟨hkept, hnot⟩ := Window.apply_union_of_not_splits hk hkn Store.length_crowdRest
    (Store.crowdFirst_not_mem n) (decide_eq_true hfirst : union crowdFirst = true) hfew
  refine ⟨crowd true n, .documents (sel.window.apply (crowdFirst :: crowdRest n)),
    .documents (sel.window.apply ((crowdFirst :: crowdRest n).filter union)),
    Store.crowd_wellFormed true n, ?_, ?_, ?_⟩
  -- one query, whose answer the window is applied to
  · have hanswer : (crowd true n).answer
        (Source.queryFor "notes" sel (Condition.foldAll sel.conditions)) =
          sel.window.sent (crowdFirst :: crowdRest n) :=
      (Source.answer_queryFor _ _ _).trans (congrArg _ (crowd_selected true))
    have hcount : (crowdFirst :: crowdRest n).length ≤ Number.maxCount := by
      rw [List.length_cons, Store.length_crowdRest]
      exact hn
    rw [← Window.apply_sent hcount, ← hanswer]
    exact fetch_of_query rfl rfl rfl (.inl rfl) htail
  -- one query for each tag, whose answers are merged
  · have hmerge : Document.merge sel.orderBy
        ((Source.conjunctions "notes" sel).map (crowd false n).answer) =
          (crowdFirst :: crowdRest n).filter union := by
      rw [← crowd_selected false]
      exact Source.merge_conjunctions (Store.crowd_wellFormed false n) fun d => decide_eq_true_iff
    rw [← hmerge]
    exact fetch_of_conjunctions rfl rfl rfl htail
  -- the first note tells the results apart
  · intro heq
    injection heq with heq
    rw [hwindow] at heq
    exact hnot (heq ▸ hkept)

end BoundQuery

end DocumentQuery
