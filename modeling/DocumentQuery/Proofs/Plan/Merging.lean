import DocumentQuery.Proofs.Plan.Disjunction
import Mathlib.Data.List.Perm.Subperm

/-!
# Merging answers that were cut

The answers to the queries of a disjunction are drawn from the documents of one collection (`Drawn`). Their
merge is in order and has every document of an answer once, so an answer is the part of the merge whose
documents are in it (`Drawn.answer_eq`).

A cut to the first documents of a list, or to its last ones, keeps of every part of the list what it keeps
of the list (`IsCut`). A document that is among the first of the merge is therefore among the first of
each answer that has it. Nothing is lost by cutting the answers before they are merged, however much they
overlap and although the cut does not know yet which documents are repeated (`Drawn.cut_merge`).

That an answer has each document once is needed. A document that came twice in one answer would take two
places in the cut and one in the merge, and a document behind it could be lost. A store never answers so,
since the documents of a collection are at distinct paths.
-/

namespace DocumentQuery

namespace Document

/-! ## Cuts -/

/-- Keeping a part of a list by the places of the documents in it. The laws are those that the first and the
last documents have in common, so that both are treated by one argument. -/
structure IsCut (cut : List Document → List Document) : Prop where
  /-- What is kept is a part of the list, in its order. -/
  sublist (ds : List Document) : (cut ds).Sublist ds
  /-- A document that is kept of a list is kept of every part of the list it belongs to. -/
  mem_filter {ds : List Document} {p : Document → Bool} {d : Document} :
    d ∈ cut ds → p d = true → d ∈ cut (ds.filter p)
  /-- Documents that are not kept make no difference. -/
  filter_of_forall {ds : List Document} {p : Document → Bool} :
    (∀ d ∈ cut ds, p d = true) → cut (ds.filter p) = cut ds

/-- Keeping the first documents is a cut. -/
theorem isCut_take (n : Nat) : IsCut (List.take n) where
  sublist ds := List.take_sublist n ds
  mem_filter := mem_take_filter
  filter_of_forall := take_filter_of_forall

/-- Keeping the last documents is a cut. -/
theorem isCut_takeLast (n : Nat) : IsCut (takeLast n) where
  sublist ds := List.drop_sublist _ ds
  mem_filter := mem_takeLast_filter
  filter_of_forall := takeLast_filter_of_forall

/-! ## Answers from one set of documents -/

/-- Answers drawn from documents at distinct paths: an answer is in order and has each of the documents at
most once. Different answers may share documents. Within one answer a document that came twice would take
the place of another when the answer is cut. -/
structure Drawn (os : List StoreOrder) (documents : List Document) (answers : List (List Document)) :
    Prop where
  /-- The documents they are drawn from are at distinct paths. -/
  distinctPaths : DistinctPaths documents
  /-- An answer has each of the documents at most once. -/
  subperm : ∀ answer ∈ answers, answer.Subperm documents
  /-- An answer is in order. -/
  sorted : ∀ answer ∈ answers, Sorted os answer

/-- A merge is in order. -/
theorem merge_sorted (os : List StoreOrder) (answers : List (List Document)) :
    Sorted os (merge os answers) :=
  sort_sorted os _

/-- A merge has no path twice. -/
theorem merge_distinctPaths (os : List StoreOrder) (answers : List (List Document)) :
    DistinctPaths (merge os answers) :=
  (distinct_distinctPaths [] answers.flatten).perm (sort_perm os _).symm

namespace Drawn

variable {os : List StoreOrder} {documents : List Document} {answers : List (List Document)}

/-- No answer repeats a document. -/
theorem nodup (h : Drawn os documents answers) {answer : List Document} (ha : answer ∈ answers) :
    answer.Nodup := by
  obtain ⟨arranged, hperm, hsub⟩ := h.subperm answer ha
  exact hperm.nodup_iff.mp (h.distinctPaths.nodup.sublist hsub)

/-- The merge is the union of the answers. -/
theorem mem_merge (h : Drawn os documents answers) {d : Document} :
    d ∈ merge os answers ↔ ∃ answer ∈ answers, d ∈ answer := by
  have hflat {e : Document} (he : e ∈ answers.flatten) : e ∈ documents := by
    obtain ⟨answer, ha, hea⟩ := List.mem_flatten.mp he
    exact (h.subperm answer ha).subset hea
  rw [merge, mem_sort, ← List.mem_flatten]
  refine ⟨fun hd => (mem_distinct hd).1, fun hd => ?_⟩
  obtain ⟨e, he, hpath⟩ := exists_mem_distinct hd (List.not_mem_nil (a := d.path))
  rwa [← h.distinctPaths.eq_of_path_eq (hflat (mem_distinct he).1) (hflat hd) hpath]

open Classical in
/-- An answer is the part of the merge whose documents are in it. -/
theorem answer_eq (h : Drawn os documents answers) {answer : List Document} (ha : answer ∈ answers) :
    answer = (merge os answers).filter fun d => decide (d ∈ answer) := by
  have hmerge := merge_distinctPaths os answers
  have hperm : answer.Perm ((merge os answers).filter fun d => decide (d ∈ answer)) := by
    refine (List.perm_ext_iff_of_nodup (h.nodup ha) (hmerge.nodup.filter _)).mpr fun d => ?_
    rw [List.mem_filter, decide_eq_true_iff, h.mem_merge]
    exact ⟨fun hd => ⟨⟨answer, ha, hd⟩, hd⟩, fun hd => hd.2⟩
  have hconsistent : Consistent answer :=
    h.distinctPaths.consistent.subset (h.subperm answer ha).subset
  exact (h.sorted answer ha).eq_of_perm (List.Pairwise.filter _ (merge_sorted os answers)) hconsistent
    hperm

/-- Answers stay answers when they are cut. -/
theorem map_cut (h : Drawn os documents answers) {cut : List Document → List Document}
    (hcut : IsCut cut) : Drawn os documents (answers.map cut) where
  distinctPaths := h.distinctPaths
  subperm := List.forall_mem_map.mpr fun answer ha =>
    (hcut.sublist answer).subperm.trans (h.subperm answer ha)
  sorted := List.forall_mem_map.mpr fun answer ha => (h.sorted answer ha).sublist (hcut.sublist answer)

open Classical in
/-- A cut keeps the same of the merge, whether or not the answers were cut before. -/
theorem cut_merge (h : Drawn os documents answers) {cut : List Document → List Document}
    (hcut : IsCut cut) : cut (merge os (answers.map cut)) = cut (merge os answers) := by
  have hmerge : merge os (answers.map cut) =
      (merge os answers).filter fun d => decide (d ∈ merge os (answers.map cut)) := by
    refine merge_eq_of_mem_iff (List.Pairwise.filter _ (merge_sorted os answers))
      ((merge_distinctPaths os answers).filter _) fun d => ?_
    rw [List.mem_filter, decide_eq_true_iff, ← (h.map_cut hcut).mem_merge, and_iff_right_iff_imp,
      (h.map_cut hcut).mem_merge, h.mem_merge]
    rintro ⟨_, hm, hd⟩
    obtain ⟨answer, ha, rfl⟩ := List.mem_map.mp hm
    exact ⟨answer, ha, (hcut.sublist answer).subset hd⟩
  rw [hmerge]
  refine hcut.filter_of_forall fun d hd => decide_eq_true ?_
  -- what is kept of the merge is kept of each of its parts, so of an answer that has the document
  obtain ⟨answer, ha, hda⟩ := h.mem_merge.mp ((hcut.sublist _).subset hd)
  refine (h.map_cut hcut).mem_merge.mpr ⟨cut answer, List.mem_map_of_mem ha, ?_⟩
  rw [h.answer_eq ha]
  exact hcut.mem_filter hd (decide_eq_true hda)

end Drawn

/-- The first documents of merged answers, and the last ones, are found from as many documents of each answer.
The merge of the answers is their union in order, in which no path is repeated.

There may be any number of answers, none included, of any lengths, and they may overlap. The ordering may be
by no field at all, and it is then that of the paths. -/
theorem merge_of_cut {os : List StoreOrder} {documents : List Document} {answers : List (List Document)}
    (h : Drawn os documents answers) :
    (∀ k, (merge os (answers.map (List.take k))).take k = (merge os answers).take k) ∧
    (∀ k, takeLast k (merge os (answers.map (takeLast k))) = takeLast k (merge os answers)) ∧
    Sorted os (merge os answers) ∧ DistinctPaths (merge os answers) ∧
    ∀ d, d ∈ merge os answers ↔ ∃ answer ∈ answers, d ∈ answer :=
  ⟨fun k => h.cut_merge (isCut_take k), fun k => h.cut_merge (isCut_takeLast k),
    merge_sorted os answers, merge_distinctPaths os answers, fun _ => h.mem_merge⟩

/-- Three notes, and two answers of which both have the second note. -/
def tiedNotes : List Document :=
  [⟨"notes/a", .null⟩, ⟨"notes/b", .null⟩, ⟨"notes/c", .null⟩]

@[inherit_doc tiedNotes]
def tiedAnswers : List (List Document) :=
  [[⟨"notes/b", .null⟩, ⟨"notes/a", .null⟩], [⟨"notes/c", .null⟩, ⟨"notes/b", .null⟩]]

/-- The first of three notes in descending order, where the second one is in both answers. -/
theorem merge_of_cut_notes :
    Drawn [⟨"tag", .descending⟩] tiedNotes tiedAnswers ∧
    (merge [⟨"tag", .descending⟩] (tiedAnswers.map (List.take 1))).take 1 =
      (merge [⟨"tag", .descending⟩] tiedAnswers).take 1 := by
  have h : Drawn [⟨"tag", .descending⟩] tiedNotes tiedAnswers := by
    refine ⟨by decide, List.forall_mem_cons.mpr ⟨?_, List.forall_mem_singleton.mpr ?_⟩, by decide⟩
    · exact ⟨_, .swap _ _ [], .cons_cons _ (.cons_cons _ (List.nil_sublist _))⟩
    · exact ⟨_, .swap _ _ [], List.sublist_cons_self _ _⟩
  exact ⟨h, (merge_of_cut h).1 1⟩

end Document

end DocumentQuery
