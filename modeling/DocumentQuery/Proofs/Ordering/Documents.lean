import DocumentQuery.Proofs.Ordering.Value
import DocumentQuery.Store.Query
import Mathlib.Data.List.Pairwise

/-!
# The ordering of documents

Documents are compared by fields and then by paths, so the comparison is a total preorder in which only
documents at one path are equal (`path_eq_of_order_eq`). A sorted list of documents no two of which are
different versions at one path is therefore determined by its members alone: sorting forgets the
arrangement it starts from (`sort_eq_of_perm`), and it commutes with filters (`sort_filter`). `order_laws`
puts the laws of both orderings together.

A document is also compared by its path, in the direction of the last field. This is what makes sorting by no
field the order of paths, and what leaves no ties between documents of one collection.
-/

namespace DocumentQuery

/-! ## The comparison -/

instance (o : StoreOrder) : Std.TransCmp o.order where
  eq_swap {a b} := by
    cases h : o.direction <;> simp only [StoreOrder.order, h] <;> exact Std.OrientedCmp.eq_swap
  isLE_trans {a b c} hab hbc := by
    cases h : o.direction <;> simp only [StoreOrder.order, h] at hab hbc ⊢
    · exact Std.TransCmp.isLE_trans hab hbc
    · exact Std.TransCmp.isLE_trans hbc hab

namespace Document

/-- Ordering by fields is the lexicographic composition of the single fields. -/
theorem orderByFields_transCmp (os : List StoreOrder) :
    Std.TransCmp fun a b : Document => orderByFields a b os := by
  induction os with
  | nil =>
    exact { eq_swap := rfl, isLE_trans := fun _ _ => rfl }
  | cons o os ih =>
    exact inferInstanceAs (Std.TransCmp
      (compareLex o.order fun a b : Document => orderByFields a b os))

/-- Ordering by paths follows the direction of the last field. -/
theorem orderByPath_eq (os : List StoreOrder) :
    orderByPath os = (fun a b => compare a.path b.path) ∨
      orderByPath os = fun a b => compare b.path a.path := by
  unfold orderByPath
  cases os.getLast? with
  | none => exact Or.inl rfl
  | some o =>
    obtain ⟨path, direction⟩ := o
    cases direction
    · exact Or.inl rfl
    · exact Or.inr rfl

instance (os : List StoreOrder) : Std.TransCmp (orderByPath os) where
  eq_swap {a b} := by
    rcases orderByPath_eq os with h | h <;> rw [h] <;> exact Std.OrientedOrd.eq_swap
  isLE_trans {a b c} hab hbc := by
    rcases orderByPath_eq os with h | h <;> rw [h] at hab hbc ⊢
    · exact Std.TransOrd.isLE_trans hab hbc
    · exact Std.TransOrd.isLE_trans hbc hab

instance (os : List StoreOrder) : Std.TransCmp (order os) :=
  have := orderByFields_transCmp os
  inferInstanceAs (Std.TransCmp
    (compareLex (fun a b : Document => orderByFields a b os) (orderByPath os)))

/-- Only documents at one path are equal in the ordering. -/
theorem path_eq_of_order_eq {os : List StoreOrder} {a b : Document} (h : order os a b = .eq) :
    a.path = b.path := by
  have hp : orderByPath os a b = .eq := (Ordering.then_eq_eq.mp h).2
  rcases orderByPath_eq os with he | he <;> rw [he] at hp
  · exact Std.LawfulEqOrd.eq_of_compare hp
  · exact (Std.LawfulEqOrd.eq_of_compare hp).symm

/-! ## Not coming after -/

/-- A document does not come after another one if it comes before it or is equal to it in the ordering. -/
theorem notAfter_iff {os : List StoreOrder} {a b : Document} :
    notAfter os a b = true ↔ (order os a b).isLE := by
  unfold notAfter
  cases order os a b <;> decide

/-- Not coming after is transitive. -/
theorem notAfter_trans {os : List StoreOrder} (a b c : Document) (hab : notAfter os a b = true)
    (hbc : notAfter os b c = true) : notAfter os a c = true := by
  rw [notAfter_iff] at hab hbc ⊢
  exact Std.TransCmp.isLE_trans hab hbc

/-- Of two documents one does not come after the other. -/
theorem notAfter_total {os : List StoreOrder} (a b : Document) :
    (notAfter os a b || notAfter os b a) = true := by
  have hs : order os b a = (order os a b).swap := Std.OrientedCmp.eq_swap
  rw [Bool.or_eq_true, notAfter_iff, notAfter_iff, hs]
  cases order os a b <;> decide

/-- Two documents neither of which comes after the other are at one path. -/
theorem path_eq_of_notAfter {os : List StoreOrder} {a b : Document} (hab : notAfter os a b = true)
    (hba : notAfter os b a = true) : a.path = b.path := by
  rw [notAfter_iff] at hab hba
  exact path_eq_of_order_eq (Std.OrientedCmp.isLE_antisymm hab hba)

/-! ## Sorted lists -/

/-- Whether a list of documents is in order. -/
def Sorted (os : List StoreOrder) (documents : List Document) : Prop :=
  documents.Pairwise fun a b => notAfter os a b = true

/-- Documents at distinct paths. The documents of a collection are, and so are the results of one query. -/
def DistinctPaths (documents : List Document) : Prop :=
  documents.Pairwise fun a b => a.path ≠ b.path

instance (os : List StoreOrder) (documents : List Document) : Decidable (Sorted os documents) :=
  inferInstanceAs (Decidable (List.Pairwise _ _))

instance (documents : List Document) : Decidable (DistinctPaths documents) :=
  inferInstanceAs (Decidable (List.Pairwise _ _))

/-- Documents at distinct paths are so in every arrangement. -/
theorem DistinctPaths.perm {as bs : List Document} (h : DistinctPaths as) (p : as.Perm bs) :
    DistinctPaths bs :=
  List.Pairwise.perm h p Ne.symm

theorem DistinctPaths.filter {ds : List Document} (h : DistinctPaths ds) (p : Document → Bool) :
    DistinctPaths (ds.filter p) :=
  List.Pairwise.filter p h

/-- Documents at distinct paths are different. -/
theorem DistinctPaths.nodup {ds : List Document} (h : DistinctPaths ds) : ds.Nodup :=
  h.imp fun hne he => hne (congrArg Document.path he)

/-- Among documents at distinct paths, the path determines the document. -/
theorem DistinctPaths.eq_of_path_eq {ds : List Document} (h : DistinctPaths ds) {a b : Document}
    (ha : a ∈ ds) (hb : b ∈ ds) (hp : a.path = b.path) : a = b := by
  have : Std.Symm fun a b : Document => a.path ≠ b.path := ⟨fun _ _ => Ne.symm⟩
  by_contra hne
  exact List.Pairwise.forall h ha hb hne hp

/-- Sorting keeps the documents. -/
theorem sort_perm (os : List StoreOrder) (ds : List Document) : (sort os ds).Perm ds :=
  List.mergeSort_perm ds _

@[simp] theorem mem_sort {os : List StoreOrder} {ds : List Document} {d : Document} :
    d ∈ sort os ds ↔ d ∈ ds :=
  (sort_perm os ds).mem_iff

/-- What was sorted is in order. -/
theorem sort_sorted (os : List StoreOrder) (ds : List Document) : Sorted os (sort os ds) :=
  List.pairwise_mergeSort notAfter_trans notAfter_total ds

/-- What is in order is left as it is. -/
theorem sort_of_sorted {os : List StoreOrder} {ds : List Document} (h : Sorted os ds) :
    sort os ds = ds :=
  List.mergeSort_of_pairwise h

/-- Documents of which no two are different versions at one path; a document may be repeated. This is weaker
than being at distinct paths, and it is what the answers of one store to several queries are. -/
def Consistent (documents : List Document) : Prop :=
  ∀ a ∈ documents, ∀ b ∈ documents, a.path = b.path → a = b

theorem DistinctPaths.consistent {ds : List Document} (h : DistinctPaths ds) : Consistent ds :=
  fun _ ha _ hb hp => h.eq_of_path_eq ha hb hp

theorem Consistent.subset {as bs : List Document} (h : Consistent bs) (hs : as ⊆ bs) :
    Consistent as :=
  fun a ha b hb hp => h a (hs ha) b (hs hb) hp

theorem Consistent.filter {ds : List Document} (h : Consistent ds) (p : Document → Bool) :
    Consistent (ds.filter p) :=
  h.subset fun _ hd => (List.mem_filter.mp hd).1

/-- Two arrangements of consistent documents that are both in order are the same. Repeated documents are
equal, so it does not matter which of them comes first. -/
theorem Sorted.eq_of_perm {os : List StoreOrder} {as bs : List Document} (ha : Sorted os as)
    (hb : Sorted os bs) (hc : Consistent as) (p : as.Perm bs) : as = bs :=
  List.Perm.eq_of_pairwise
    (fun a b hma hmb hab hba => hc a hma b (p.symm.subset hmb) (path_eq_of_notAfter hab hba)) ha hb p

/-- Sorting forgets how the documents were arranged. -/
theorem Consistent.sort_eq_of_perm {os : List StoreOrder} {as bs : List Document} (hc : Consistent as)
    (p : as.Perm bs) : sort os as = sort os bs :=
  (sort_sorted os as).eq_of_perm (sort_sorted os bs) (hc.subset (sort_perm os as).subset)
    ((sort_perm os as).trans (p.trans (sort_perm os bs).symm))

/-- Sorting commutes with leaving documents out. -/
theorem Consistent.sort_filter {os : List StoreOrder} {ds : List Document} (hc : Consistent ds)
    (p : Document → Bool) : sort os (ds.filter p) = (sort os ds).filter p :=
  (sort_sorted os _).eq_of_perm (List.Pairwise.filter p (sort_sorted os ds))
    (hc.subset fun _ hd => (List.mem_filter.mp (mem_sort.mp hd)).1)
    ((sort_perm os _).trans ((sort_perm os ds).symm.filter p))

theorem sort_eq_of_perm {os : List StoreOrder} {as bs : List Document} (hd : DistinctPaths as)
    (p : as.Perm bs) : sort os as = sort os bs :=
  hd.consistent.sort_eq_of_perm p

theorem sort_filter {os : List StoreOrder} {ds : List Document} (hd : DistinctPaths ds)
    (p : Document → Bool) : sort os (ds.filter p) = (sort os ds).filter p :=
  hd.consistent.sort_filter p

/-! ## The laws together -/

/-- The ordering of values turns around with its operands and is transitive. So is that of documents, and it
tells documents at different paths apart, whatever fields they are ordered by. Documents at distinct paths
therefore have one arrangement in order, and sorting finds it from every arrangement.

Nothing is assumed of the values, which may be of different kinds and nested, with numbers of any size. -/
theorem order_laws :
    (∀ a b : Json, b.order a = (a.order b).swap) ∧
    (∀ a b c : Json, a.order b ≠ .gt → b.order c ≠ .gt → a.order c ≠ .gt) ∧
    ∀ os : List StoreOrder,
      (∀ a b, order os b a = (order os a b).swap) ∧
      (∀ a b c, order os a b ≠ .gt → order os b c ≠ .gt → order os a c ≠ .gt) ∧
      (∀ a b c, order os a b = .lt → order os b c = .lt → order os a c = .lt) ∧
      (∀ a b, a.path ≠ b.path → order os a b ≠ .eq) ∧
      ∀ as bs, DistinctPaths as → as.Perm bs →
        sort os as = sort os bs ∧ (Sorted os bs → sort os as = bs) := by
  refine ⟨fun a b => (Json.order_swap a b).symm, fun a b c => compare_ne_gt_trans, fun os => ?_⟩
  refine ⟨fun a b => Std.OrientedCmp.eq_swap, fun a b c => compare_ne_gt_trans,
    fun a b c => Std.TransCmp.lt_trans, fun a b hne heq => hne (path_eq_of_order_eq heq),
    fun as bs hd p => ?_⟩
  have hsort : sort os as = sort os bs := sort_eq_of_perm hd p
  exact ⟨hsort, fun hb => hsort.trans (sort_of_sorted hb)⟩

/-- Two documents whose values are objects of one size: the paths decide, in the direction of the field. -/
theorem order_laws_descending :
    DistinctPaths [⟨"notes/a", .obj [("tag", .obj [("x", .null)])]⟩,
      ⟨"notes/b", .obj [("tag", .obj [("y", .bool true)])]⟩] ∧
    sort [⟨"tag", .descending⟩] [⟨"notes/a", .obj [("tag", .obj [("x", .null)])]⟩,
        ⟨"notes/b", .obj [("tag", .obj [("y", .bool true)])]⟩] =
      [⟨"notes/b", .obj [("tag", .obj [("y", .bool true)])]⟩,
        ⟨"notes/a", .obj [("tag", .obj [("x", .null)])]⟩] := by
  obtain ⟨-, -, laws⟩ := order_laws
  obtain ⟨-, -, -, -, hsort⟩ := laws [⟨"tag", .descending⟩]
  exact ⟨by decide, (hsort _ _ (by decide) (.swap _ _ [])).2 (by decide)⟩

end Document

end DocumentQuery
