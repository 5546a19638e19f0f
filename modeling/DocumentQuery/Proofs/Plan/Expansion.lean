import DocumentQuery.Proofs.Plan.Disjunction

/-!
# The size of an expansion

How many conjunctions conditions expand into is counted before any of them is made. The count saturates
wherever it adds or multiplies. A sum or product that was cut on the way is too large at the end as well,
unless it is multiplied by nothing, and then both are zero; so what is counted is the number of
conjunctions, cut once (`Condition.disjunctsAll_eq`). For the same reason it makes no difference from which
end conjunctions and counts are accumulated (`Condition.expandAll_eq_foldl`,
`Condition.disjunctsAll_eq_foldl`).

`Condition.expandAll_exact` puts together what the expansion is: what its conjunctions are made of, which
documents they let through, and how many there are.

The number of conjunctions is a product of sums, and it can be far larger than what can be counted; it is cut
off at the largest count at every step. Cutting off at every step is cutting off at the end, so the check of
the size is exact as long as the limit itself can be counted.
-/

namespace DocumentQuery

/-! ## Counts that saturate -/

theorem saturate_eq_zero {n : Nat} (h : saturate n = 0) : n = 0 := by
  simp only [saturate, Number.maxCount] at h
  omega

/-- A sum saturates as if its parts had not. -/
theorem saturate_add (m n : Nat) : saturate (saturate m + saturate n) = saturate (m + n) := by
  simp only [saturate]
  omega

theorem saturate_of_le {n : Nat} (h : Number.maxCount ≤ n) : saturate n = Number.maxCount :=
  Nat.min_eq_right h

/-- A factor that is too large makes the product too large, whether or not the factors are cut. -/
theorem saturate_mul_of_le {m n : Nat} (hm : Number.maxCount ≤ m) (hn : 0 < n) :
    saturate (saturate m * saturate n) = saturate (m * n) := by
  have hsn : 0 < saturate n := Nat.pos_of_ne_zero fun h => hn.ne' (saturate_eq_zero h)
  rw [saturate_of_le hm, saturate_of_le (Nat.le_mul_of_pos_right _ hsn),
    saturate_of_le (hm.trans (Nat.le_mul_of_pos_right m hn))]

/-- A product saturates as if its factors had not. -/
theorem saturate_mul (m n : Nat) : saturate (saturate m * saturate n) = saturate (m * n) := by
  rcases Nat.eq_zero_or_pos m with rfl | hm
  · rw [show saturate 0 = 0 from rfl, Nat.zero_mul, Nat.zero_mul]
  rcases Nat.eq_zero_or_pos n with rfl | hn
  · rw [show saturate 0 = 0 from rfl, Nat.mul_zero, Nat.mul_zero]
  rcases Nat.le_total Number.maxCount m with hm' | hm'
  · exact saturate_mul_of_le hm' hn
  rcases Nat.le_total Number.maxCount n with hn' | hn'
  · rw [Nat.mul_comm (saturate m), Nat.mul_comm m, saturate_mul_of_le hn' hm]
  · rw [show saturate m = m from Nat.min_eq_left hm', show saturate n = n from Nat.min_eq_left hn']

namespace Condition

/-! ## How many conjunctions there are -/

theorem length_combine (left right : List (List StoreFilter)) :
    (combine left right).length = left.length * right.length := by
  induction left with
  | nil => simp [combine]
  | cons fs left ih =>
    simp only [combine, List.flatMap_cons, List.length_append, List.length_map] at ih ⊢
    rw [ih, List.length_cons, Nat.succ_mul, Nat.add_comm]

mutual

/-- What is counted for a condition is the number of its conjunctions. -/
theorem disjuncts_eq (c : Condition) : disjuncts c = saturate (expand c).length := by
  cases c with
  | compare c => rfl
  | or members => exact disjunctsAny_eq members
  | and members => exact disjunctsAll_eq members

theorem disjunctsAny_eq (cs : List Condition) : disjunctsAny cs = saturate (expandAny cs).length := by
  cases cs with
  | nil => rfl
  | cons c cs =>
    rw [disjunctsAny, disjuncts_eq c, disjunctsAny_eq cs, saturate_add, expandAny, List.length_append]

theorem disjunctsAll_eq (cs : List Condition) : disjunctsAll cs = saturate (expandAll cs).length := by
  cases cs with
  | nil => rfl
  | cons c cs =>
    rw [disjunctsAll, disjuncts_eq c, disjunctsAll_eq cs, saturate_mul, expandAll, length_combine]

end

/-! ## Accumulation from the front -/

theorem combine_assoc (as bs cs : List (List StoreFilter)) :
    combine (combine as bs) cs = combine as (combine bs cs) := by
  simp only [combine, List.flatMap_assoc, List.flatMap_map, List.map_flatMap, List.map_map,
    Function.comp_def, List.append_assoc]

theorem combine_nil_left (right : List (List StoreFilter)) : combine [[]] right = right := by
  simp [combine]

theorem foldl_combine (start : List (List StoreFilter)) (cs : List Condition) :
    cs.foldl (fun left c => combine left (expand c)) start = combine start (expandAll cs) := by
  induction cs generalizing start with
  | nil => simp [expandAll, combine]
  | cons c cs ih => rw [List.foldl_cons, ih, combine_assoc, expandAll]

/-- The conjunctions come out in the same order if every condition is joined to those before it. -/
theorem expandAll_eq_foldl (cs : List Condition) :
    expandAll cs = cs.foldl (fun left c => combine left (expand c)) [[]] :=
  ((foldl_combine [[]] cs).trans (combine_nil_left _)).symm

theorem foldl_saturate (start : Nat) (cs : List Condition) :
    cs.foldl (fun n c => saturate (n * disjuncts c)) (saturate start) =
      saturate (start * (expandAll cs).length) := by
  induction cs generalizing start with
  | nil => rw [List.foldl_nil, expandAll, List.length_singleton, Nat.mul_one]
  | cons c cs ih =>
    rw [List.foldl_cons, disjuncts_eq, saturate_mul, ih, expandAll, length_combine, Nat.mul_assoc]

/-- The count comes out the same if it is multiplied up from the front, wherever it saturates. -/
theorem disjunctsAll_eq_foldl (cs : List Condition) :
    disjunctsAll cs = cs.foldl (fun n c => saturate (n * disjuncts c)) 1 := by
  rw [disjunctsAll_eq, show (1 : Nat) = saturate 1 from rfl, foldl_saturate, Nat.one_mul]

/-! ## What the expansion is -/

theorem checkSize_eq_ok {limit : Nat} {cs : List Condition} :
    checkSize limit cs = .ok () ↔ saturate (expandAll cs).length ≤ limit := by
  rw [checkSize, disjunctsAll_eq]
  split <;> simp_all

theorem allAccept_iff {d : Document} {fs : List StoreFilter} :
    StoreFilter.allAccept d fs = true ↔ ∀ f ∈ fs, f.accepts d = true := by
  induction fs with
  | nil => simp [StoreFilter.allAccept]
  | cons f fs ih => simp [StoreFilter.allAccept, ih]

end Condition

/-- One query is made for each conjunction, and none before the check has passed. -/
theorem Source.ofSelection_eq_disjunction {limits : QueryLimits} {nativeOr : Bool} {collection : String}
    {sel : Selection} {queries : List StoreQuery}
    (h : ofSelection limits nativeOr collection sel = .ok (.disjunction queries)) :
    Condition.checkSize limits.maxDisjunctions sel.conditions = .ok () ∧
      queries.length = (Condition.expandAll sel.conditions).length := by
  obtain ⟨⟨⟩, hcheck, h⟩ := Except.bind_eq_ok.mp h
  split at h
  · cases h
  · cases h
    exact ⟨hcheck, List.length_map _⟩

namespace Condition

/-- Conditions expand into conjunctions of their comparisons. A document meets the conditions exactly if it
meets all comparisons of one conjunction. The number of conjunctions is known beforehand up to the largest
count, so conditions that pass the check have no more than the limit, and no more queries are made; a limit
that is itself the largest count says nothing about expansions that are too large to be counted. -/
theorem expandAll_exact (cs : List Condition) :
    (∀ fs ∈ expandAll cs, ∀ f ∈ fs,
      ∃ c ∈ comparisonsOf cs, f = .compare c.field.path c.operator c.value) ∧
    (∀ d : Document, (foldAll cs).all (·.accepts d) = true ↔
      ∃ fs ∈ expandAll cs, ∀ f ∈ fs, f.accepts d = true) ∧
    disjunctsAll cs = min (expandAll cs).length Number.maxCount ∧
    (∀ limit, checkSize limit cs = .ok () →
      limit < Number.maxCount ∨ (expandAll cs).length ≤ Number.maxCount →
      (expandAll cs).length ≤ limit) ∧
    ∀ limits nativeOr collection orderBy window queries,
      Source.ofSelection limits nativeOr collection ⟨cs, orderBy, window⟩ = .ok (.disjunction queries) →
      checkSize limits.maxDisjunctions cs = .ok () ∧ queries.length = (expandAll cs).length := by
  refine ⟨expandAll_forall cs fun c hc => ⟨c, hc, rfl⟩, fun d => ?_, disjunctsAll_eq cs,
    fun limit hcheck hfits => ?_, fun _ _ _ _ _ _ => Source.ofSelection_eq_disjunction⟩
  · simp only [foldAll_accepts, ← expandAll_accepts, List.any_eq_true, allAccept_iff]
  · have hcount := checkSize_eq_ok.mp hcheck
    simp only [saturate] at hcount
    omega

/-- Two identities, of which a limit of two allows for both. -/
theorem expandAll_exact_twoIds :
    checkSize 2 [.or [.compare ⟨FieldRef.documentId "Id", .equalTo, .str "a"⟩,
      .compare ⟨FieldRef.documentId "Id", .equalTo, .str "b"⟩]] = .ok () ∧
    (expandAll [.or [.compare ⟨FieldRef.documentId "Id", .equalTo, .str "a"⟩,
      .compare ⟨FieldRef.documentId "Id", .equalTo, .str "b"⟩]]).length ≤ 2 := by
  obtain ⟨-, -, -, hsize, -⟩ := expandAll_exact
    [.or [.compare ⟨FieldRef.documentId "Id", .equalTo, .str "a"⟩,
      .compare ⟨FieldRef.documentId "Id", .equalTo, .str "b"⟩]]
  exact ⟨rfl, hsize 2 rfl (.inl (by decide))⟩

end Condition

end DocumentQuery
