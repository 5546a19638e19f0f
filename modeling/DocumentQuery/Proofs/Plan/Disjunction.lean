import DocumentQuery.Proofs.Plan.Selection
import DocumentQuery.Proofs.Success

/-!
# Disjunctions without the help of the store

Conditions with disjunctions are expanded into conjunctions, each of which is one query. A document meets
the conditions if and only if it meets one of the conjunctions (`Condition.expandAll_accepts`), and what
the queries bring is merged: the merge is the one list in order, without a path twice, that has the
members of the answers (`Document.merge_eq_of_mem_iff`).

Every query is cut by the store on its own. Where the window allows that (`Window.Splits`), the merged
answers mean what the selection means (`Source.answer_disjunction`), so it makes no difference whether the
store knows disjunctions (`BoundQuery.outcome_of_native`).

The merge is characterized by its members and by being sorted, so how the answers overlap does not matter, nor
in which order they come. What remains to be shown of the answers is that they have the documents of the
window, and that they have no others that the window would take instead.
-/

namespace DocumentQuery

/-! ## Expansion -/

namespace StoreFilter

/-- A document is accepted by two lists of filters if it is by each of them. -/
theorem allAccept_append (d : Document) (fs gs : List StoreFilter) :
    allAccept d (fs ++ gs) = (allAccept d fs && allAccept d gs) := by
  induction fs with
  | nil => simp [allAccept]
  | cons f fs ih => simp [allAccept, ih, Bool.and_assoc]

end StoreFilter

namespace Condition

open StoreFilter (allAccept anyAccepts accepts)

variable (d : Document)

/-- A conjunction lets a document through when all its members do. -/
theorem conjunction_accepts (fs : List StoreFilter) :
    (conjunction fs).all (·.accepts d) = allAccept d fs := by
  match fs with
  | [] => rfl
  | [f] => simp [conjunction, allAccept]
  | f :: g :: fs => simp [conjunction, accepts]

/-- Conditions that are folded into one filter accept what all of them accept. -/
theorem foldAll_accepts (cs : List Condition) :
    (foldAll cs).all (·.accepts d) = allAccept d (toFilters cs) :=
  conjunction_accepts d _

theorem toFilters_append (cs cs' : List Condition) :
    toFilters (cs ++ cs') = toFilters cs ++ toFilters cs' := by
  induction cs with
  | nil => rfl
  | cons c cs ih => simp [toFilters, ih]

/-- Joining one conjunction with every conjunction of a list adds what it asks for. -/
theorem join_accepts (fs : List StoreFilter) (right : List (List StoreFilter)) :
    (right.map (fs ++ ·)).any (allAccept d) = (allAccept d fs && right.any (allAccept d)) := by
  induction right with
  | nil => simp
  | cons gs right ih =>
    rw [List.map_cons, List.any_cons, ih, StoreFilter.allAccept_append, List.any_cons,
      Bool.and_or_distrib_left]

/-- A document meets a conjunction of both sides if it meets one of each. -/
theorem combine_accepts (left right : List (List StoreFilter)) :
    (combine left right).any (allAccept d) = (left.any (allAccept d) && right.any (allAccept d)) := by
  induction left with
  | nil => rfl
  | cons fs left ih =>
    simp only [combine, List.flatMap_cons, List.any_append] at ih ⊢
    rw [join_accepts, ih, List.any_cons, Bool.and_or_distrib_right]

mutual

/-- A document meets a condition if and only if it meets one of its conjunctions. -/
theorem expand_accepts (c : Condition) : (expand c).any (allAccept d) = accepts d c.toFilter := by
  cases c with
  | compare c => simp [expand, toFilter, allAccept]
  | or members => exact expandAny_accepts members
  | and members => exact expandAll_accepts members

theorem expandAny_accepts (cs : List Condition) :
    (expandAny cs).any (allAccept d) = anyAccepts d (toFilters cs) := by
  cases cs with
  | nil => rfl
  | cons c cs =>
    simp only [expandAny, toFilters, anyAccepts, List.any_append]
    rw [expand_accepts c, expandAny_accepts cs]

theorem expandAll_accepts (cs : List Condition) :
    (expandAll cs).any (allAccept d) = allAccept d (toFilters cs) := by
  cases cs with
  | nil => rfl
  | cons c cs =>
    simp only [expandAll, toFilters, allAccept]
    rw [combine_accepts, expand_accepts c, expandAll_accepts cs]

end

/-! The members of conjunctions are comparisons of the conditions. None of them is a disjunction, so every
store accepts the conjunctions. -/

theorem combine_forall {P : StoreFilter → Prop} {left right : List (List StoreFilter)}
    (hl : ∀ fs ∈ left, ∀ f ∈ fs, P f) (hr : ∀ fs ∈ right, ∀ f ∈ fs, P f) :
    ∀ fs ∈ combine left right, ∀ f ∈ fs, P f := by
  intro fs hfs f hf
  obtain ⟨l, hlm, hfs⟩ := List.mem_flatMap.mp hfs
  obtain ⟨r, hrm, rfl⟩ := List.mem_map.mp hfs
  rcases List.mem_append.mp hf with hf | hf
  · exact hl l hlm f hf
  · exact hr r hrm f hf

mutual

theorem expand_forall {P : StoreFilter → Prop} (c : Condition) (h : ∀ b ∈ c.comparisons, P b.toFilter) :
    ∀ fs ∈ expand c, ∀ f ∈ fs, P f := by
  cases c with
  | compare c =>
    intro fs hfs f hf
    obtain rfl := List.mem_singleton.mp hfs
    obtain rfl := List.mem_singleton.mp hf
    exact h c List.mem_cons_self
  | or members => exact expandAny_forall members h
  | and members => exact expandAll_forall members h

theorem expandAny_forall {P : StoreFilter → Prop} (cs : List Condition)
    (h : ∀ b ∈ comparisonsOf cs, P b.toFilter) : ∀ fs ∈ expandAny cs, ∀ f ∈ fs, P f := by
  cases cs with
  | nil => exact fun _ h => absurd h List.not_mem_nil
  | cons c cs =>
    intro fs hfs
    rcases List.mem_append.mp hfs with hfs | hfs
    · exact expand_forall c (fun b hb => h b (List.mem_append_left _ hb)) fs hfs
    · exact expandAny_forall cs (fun b hb => h b (List.mem_append_right _ hb)) fs hfs

/-- What is true of every comparison of conditions is true of every member of a conjunction. -/
theorem expandAll_forall {P : StoreFilter → Prop} (cs : List Condition)
    (h : ∀ b ∈ comparisonsOf cs, P b.toFilter) : ∀ fs ∈ expandAll cs, ∀ f ∈ fs, P f := by
  cases cs with
  | nil =>
    intro fs hfs f hf
    obtain rfl := List.mem_singleton.mp hfs
    exact absurd hf List.not_mem_nil
  | cons c cs =>
    exact combine_forall (expand_forall c fun b hb => h b (List.mem_append_left _ hb))
      (expandAll_forall cs fun b hb => h b (List.mem_append_right _ hb))

end

/-- The members of conjunctions are comparisons, so a store without disjunctions takes them. -/
theorem expandAll_compares (cs : List Condition) : ∀ fs ∈ expandAll cs, ∀ f ∈ fs, f.hasOr = false :=
  expandAll_forall cs fun _ _ => rfl

theorem anyHasOr_eq_false {fs : List StoreFilter} (h : ∀ f ∈ fs, f.hasOr = false) :
    StoreFilter.anyHasOr fs = false := by
  induction fs with
  | nil => rfl
  | cons f fs ih =>
    simp only [StoreFilter.anyHasOr, h f List.mem_cons_self, Bool.false_or]
    exact ih fun g hg => h g (List.mem_cons_of_mem _ hg)

theorem conjunction_hasOr {fs : List StoreFilter} (h : ∀ f ∈ fs, f.hasOr = false) :
    (conjunction fs).any StoreFilter.hasOr = false := by
  match fs with
  | [] => rfl
  | [f] => exact h f List.mem_cons_self
  | f :: g :: fs => exact anyHasOr_eq_false h

end Condition

/-! ## Merging -/

namespace Document

/-- What is kept was there, and its path was not seen before. -/
theorem mem_distinct {seen : List String} {ds : List Document} {d : Document}
    (h : d ∈ distinct seen ds) : d ∈ ds ∧ d.path ∉ seen := by
  induction ds generalizing seen with
  | nil => exact absurd h List.not_mem_nil
  | cons e ds ih =>
    simp only [distinct] at h
    split at h
    · exact (ih h).imp_left (List.mem_cons_of_mem e)
    next hseen =>
      rcases List.mem_cons.mp h with rfl | h
      · exact ⟨List.mem_cons_self, fun hm => hseen (List.contains_iff_mem.mpr hm)⟩
      · obtain ⟨hds, hnot⟩ := ih h
        exact ⟨List.mem_cons_of_mem e hds, fun hm => hnot (List.mem_cons_of_mem _ hm)⟩

/-- No path is kept twice. -/
theorem distinct_distinctPaths (seen : List String) (ds : List Document) :
    DistinctPaths (distinct seen ds) := by
  induction ds generalizing seen with
  | nil => exact List.Pairwise.nil
  | cons e ds ih =>
    simp only [distinct]
    split
    · exact ih seen
    · refine List.pairwise_cons.mpr ⟨fun d hd he => ?_, ih _⟩
      exact (mem_distinct hd).2 (he ▸ List.mem_cons_self)

/-- Every path that was not seen before is kept once. -/
theorem exists_mem_distinct {seen : List String} {ds : List Document} {d : Document} (hd : d ∈ ds)
    (hs : d.path ∉ seen) : ∃ e ∈ distinct seen ds, e.path = d.path := by
  induction ds generalizing seen with
  | nil => exact absurd hd List.not_mem_nil
  | cons f ds ih =>
    simp only [distinct]
    split
    next hf =>
      rcases List.mem_cons.mp hd with rfl | hd
      · exact absurd (List.contains_iff_mem.mp hf) hs
      · exact ih hd hs
    · by_cases hp : f.path = d.path
      · exact ⟨f, List.mem_cons_self, hp⟩
      · have hd : d ∈ ds := (List.mem_cons.mp hd).resolve_left fun he => hp (he ▸ rfl)
        have hs : d.path ∉ f.path :: seen := fun hm =>
          (List.mem_cons.mp hm).elim (fun he => hp he.symm) hs
        obtain ⟨e, he, hpath⟩ := ih hd hs
        exact ⟨e, List.mem_cons_of_mem _ he, hpath⟩

/-- The merge of answers is the list in order, without a path twice, that has their members. There is one such
list at most, so this determines the merge. -/
theorem merge_eq_of_mem_iff {os : List StoreOrder} {answers : List (List Document)}
    {union : List Document} (hs : Sorted os union) (hd : DistinctPaths union)
    (hmem : ∀ d, d ∈ union ↔ ∃ answer ∈ answers, d ∈ answer) : merge os answers = union := by
  have hflat (d : Document) : d ∈ answers.flatten ↔ d ∈ union :=
    List.mem_flatten.trans (hmem d).symm
  have hdistinct := distinct_distinctPaths [] answers.flatten
  -- both lists have the same members, and neither has one twice
  have hp : (distinct [] answers.flatten).Perm union := by
    refine (List.perm_ext_iff_of_nodup hdistinct.nodup hd.nodup).mpr fun d => ⟨fun h => ?_, fun h => ?_⟩
    · exact (hflat d).mp (mem_distinct h).1
    · obtain ⟨e, he, hpath⟩ :=
        exists_mem_distinct ((hflat d).mpr h) (List.not_mem_nil (a := d.path))
      rwa [← hd.eq_of_path_eq ((hflat e).mp (mem_distinct he).1) h hpath]
  have hperm : (merge os answers).Perm union := (sort_perm os _).trans hp
  exact (hs.eq_of_perm (sort_sorted os _) hd.consistent hperm.symm).symm

end Document

/-! ## The answer of the store -/

namespace Condition

mutual

theorem toFilter_hasOr (c : Condition) : c.toFilter.hasOr = c.hasOr := by
  cases c with
  | compare c => rfl
  | or members => rfl
  | and members => exact toFilters_hasOr members

theorem toFilters_hasOr (cs : List Condition) :
    StoreFilter.anyHasOr (toFilters cs) = anyHasOr cs := by
  cases cs with
  | nil => rfl
  | cons c cs => simp only [toFilters, StoreFilter.anyHasOr, anyHasOr, toFilter_hasOr c,
      toFilters_hasOr cs]

end

/-- Conditions become a filter with a disjunction exactly when they contain one. -/
theorem foldAll_hasOr (cs : List Condition) : (foldAll cs).any StoreFilter.hasOr = anyHasOr cs := by
  rw [foldAll, ← toFilters_hasOr]
  match toFilters cs with
  | [] => rfl
  | [f] => simp [conjunction, StoreFilter.anyHasOr]
  | f :: g :: fs => simp [conjunction, StoreFilter.hasOr]

end Condition

namespace Source

open StoreFilter (allAccept)

variable {s : Store} {collection : String} {sel : Selection}

/-- A selected document meets the conditions, hence one of the conjunctions. -/
theorem exists_conjunction {d : Document} (hd : sel.admits d = true) :
    ∃ fs ∈ Condition.expandAll sel.conditions, allAccept d fs = true := by
  have haccepts := (Bool.and_eq_true_iff.mp hd).1
  rw [Condition.foldAll_accepts, ← Condition.expandAll_accepts] at haccepts
  exact List.any_eq_true.mp haccepts

/-- The query for one conjunction is for the selected documents that meet it. -/
theorem admits_conjunction {fs : List StoreFilter}
    (hfs : fs ∈ Condition.expandAll sel.conditions) (d : Document) :
    (queryFor collection sel (Condition.conjunction fs)).admits d =
      (allAccept d fs && sel.admits d) := by
  show ((Condition.conjunction fs).all (·.accepts d) && d.hasOrderFields sel.orderBy) = _
  rw [Condition.conjunction_accepts, Selection.admits, Condition.foldAll_accepts,
    ← Condition.expandAll_accepts]
  cases haccepts : allAccept d fs with
  | false => rfl
  | true => rw [List.any_eq_true.mpr ⟨fs, hfs, haccepts⟩, Bool.true_and, Bool.true_and]

/-- The store sends what the window needs of the selected documents that meet a conjunction. -/
theorem answer_conjunction (h : s.WellFormed) {fs : List StoreFilter}
    (hfs : fs ∈ Condition.expandAll sel.conditions) :
    s.answer (queryFor collection sel (Condition.conjunction fs)) =
      sel.window.sent ((sel.selected s collection).filter (allAccept · fs)) := by
  have hfilter : (s.documents collection).filter
      (queryFor collection sel (Condition.conjunction fs)).admits =
        ((s.documents collection).filter sel.admits).filter (allAccept · fs) := by
    rw [List.filter_filter]
    exact List.filter_congr fun d _ => admits_conjunction hfs d
  have hcut := Window.cut_queryFor collection sel (Condition.conjunction fs)
    (Document.sort sel.orderBy
      ((s.documents collection).filter (queryFor collection sel (Condition.conjunction fs)).admits))
  refine hcut.trans (congrArg sel.window.sent ?_)
  rw [hfilter, Document.sort_filter ((h.distinctPaths collection).filter _)]
  rfl

/-- The queries for the conjunctions of a selection, each with the ordering and the cut of the selection. -/
def conjunctions (collection : String) (sel : Selection) : List StoreQuery :=
  (Condition.expandAll sel.conditions).map fun fs =>
    queryFor collection sel (Condition.conjunction fs)

/-- No store rejects the queries for the conjunctions. -/
theorem evaluate_conjunctions (htail : sel.window.limitToLast.isSome → sel.orderBy ≠ []) :
    (conjunctions collection sel).mapM s.evaluate =
      .ok ((conjunctions collection sel).map s.answer) := by
  refine Except.mapM_eq_ok fun q hq => ?_
  obtain ⟨fs, hfs, rfl⟩ := List.mem_map.mp hq
  exact evaluate_queryFor
    (.inr (Condition.conjunction_hasOr (Condition.expandAll_compares _ fs hfs))) htail

/-- Whether a document is sent for one of the conjunctions. It may be sent for several. -/
def IsSent (s : Store) (collection : String) (sel : Selection) (d : Document) : Prop :=
  ∃ fs ∈ Condition.expandAll sel.conditions,
    d ∈ sel.window.sent ((sel.selected s collection).filter (allAccept · fs))

/-- The documents in the answers are those that are sent. -/
theorem mem_answers_iff (h : s.WellFormed) {d : Document} :
    (∃ answer ∈ (conjunctions collection sel).map s.answer, d ∈ answer) ↔
      IsSent s collection sel d := by
  constructor
  · rintro ⟨answer, hm, hd⟩
    obtain ⟨q, hq, rfl⟩ := List.mem_map.mp hm
    obtain ⟨fs, hfs, rfl⟩ := List.mem_map.mp hq
    exact ⟨fs, hfs, answer_conjunction h hfs ▸ hd⟩
  · rintro ⟨fs, hfs, hd⟩
    exact ⟨_, List.mem_map_of_mem (List.mem_map_of_mem hfs), (answer_conjunction h hfs).symm ▸ hd⟩

/-- What is sent was selected. -/
theorem mem_selected_of_isSent {d : Document} (hd : IsSent s collection sel d) :
    d ∈ sel.selected s collection := by
  obtain ⟨fs, -, hd⟩ := hd
  exact (List.mem_filter.mp (Window.mem_of_mem_sent hd)).1

/-- The merge of the answers to the conjunctions consists of the selected documents that are sent. -/
theorem merge_conjunctions (h : s.WellFormed) {union : Document → Bool}
    (hunion : ∀ d, union d = true ↔ IsSent s collection sel d) :
    Document.merge sel.orderBy ((conjunctions collection sel).map s.answer) =
      (sel.selected s collection).filter union := by
  refine Document.merge_eq_of_mem_iff (List.Pairwise.filter _ Selection.selected_sorted)
    ((Selection.selected_distinctPaths h).filter _) fun d => ?_
  rw [mem_answers_iff h, List.mem_filter, hunion]
  exact ⟨fun hd => hd.2, fun hd => ⟨mem_selected_of_isSent hd, hd⟩⟩

/-- The merged answers to the conjunctions mean what the selection means, if the window may be applied to
parts first. The condition on the window carries this; the others are that the store is well formed, that its
documents can be counted, and that only an ordered selection has a tail. -/
theorem answer_disjunction (h : s.WellFormed)
    (hcount : (s.documents collection).length ≤ Number.maxCount)
    (htail : sel.window.limitToLast.isSome → sel.orderBy ≠ []) (hw : sel.window.Splits) :
    ((disjunction (conjunctions collection sel)).answer s sel.orderBy).map sel.window.apply =
      .ok (sel.ofDocuments (s.documents collection)) := by
  classical
  have hmerge : Document.merge sel.orderBy ((conjunctions collection sel).map s.answer) =
      (sel.selected s collection).filter fun d => decide (IsSent s collection sel d) :=
    merge_conjunctions h fun d => decide_eq_true_iff
  -- the parts are the conjunctions: every selected document meets one, and what is sent is in the union
  have hunion : sel.window.apply ((sel.selected s collection).filter
      fun d => decide (IsSent s collection sel d)) =
        sel.window.apply (sel.selected s collection) := by
    refine hw.apply_union ((Condition.expandAll sel.conditions).map fun fs d => allAccept d fs)
      (Nat.le_trans Selection.length_selected_le hcount) (fun d hd => ?_) fun p hp d hd => ?_
    · obtain ⟨fs, hfs, haccepts⟩ := exists_conjunction (Selection.mem_selected.mp hd).2
      exact ⟨_, List.mem_map_of_mem hfs, haccepts⟩
    · obtain ⟨fs, hfs, rfl⟩ := List.mem_map.mp hp
      exact decide_eq_true ⟨fs, hfs, hd⟩
  simp only [answer, evaluate_conjunctions htail, Except.map, hmerge, hunion,
    Selection.ofDocuments_documents h]

/-- The calls for a selection bring what the selection means. A store without disjunctions is asked for
the conjunctions one by one, so there the window has to be one that may be applied to parts. -/
theorem answer_ofSelection {limits : QueryLimits} {source : Source} (h : s.WellFormed)
    (hcount : (s.documents collection).length ≤ Number.maxCount)
    (htail : sel.window.limitToLast.isSome → sel.orderBy ≠ [])
    (hw : s.nativeOr = false → Condition.anyHasOr sel.conditions = true → sel.window.Splits)
    (hsource : ofSelection limits s.nativeOr collection sel = .ok source) :
    (source.answer s sel.orderBy).map sel.window.apply =
      .ok (sel.ofDocuments (s.documents collection)) := by
  obtain ⟨-, -, hsource⟩ := Except.bind_eq_ok.mp hsource
  split at hsource
  next hquery =>
    cases hsource
    have hor : s.nativeOr = true ∨
        (Condition.foldAll sel.conditions).any StoreFilter.hasOr = false := by
      rw [Condition.foldAll_hasOr]
      rcases Bool.or_eq_true_iff.mp hquery with hnone | hnative
      · exact .inr ((Bool.not_eq_true' _).mp hnone)
      · exact .inl hnative
    rw [answer, evaluate_queryFor hor htail, ← answer_query h hcount]
    rfl
  next hquery =>
    cases hsource
    simp only [Bool.not_eq_true, Bool.or_eq_false_iff, Bool.not_eq_false'] at hquery
    exact answer_disjunction h hcount htail (hw hquery.2 hquery.1)

end Source

end DocumentQuery
