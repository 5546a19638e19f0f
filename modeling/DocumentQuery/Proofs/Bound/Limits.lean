import DocumentQuery.Bound.Limits
import DocumentQuery.Proofs.Success

/-!
# What the limits allow

The check of the limits goes through the comparisons of all conditions from left to right, however deep they
are nested, and carries the field of the inequalities along. `QueryLimits.Allows` says what it accepts
without it: which comparisons the store takes together with an ordering. `QueryLimits.Offends` says how a
comparison breaks this after others that are allowed.

The check accepts exactly what is allowed, and otherwise fails with the offence of the first comparison that
offends after those before it (`QueryLimits.checkConditions_allows`). What is carried along is no further
state: comparisons that are allowed have inequalities on one field only, and it is this field.

The order of the checks shows in the errors. At one comparison the candidates are counted before the field is
looked at, and the leading order is checked after all comparisons. `QueryLimits.Offends` has this order in its
constructors, so an error determines which comparison it is about and why.

## Main definitions

* `QueryLimits.Allows` — comparisons that the store takes with an ordering
* `QueryLimits.Offends` — how a comparison offends after others
-/

namespace DocumentQuery

namespace QueryLimits

variable {limits : QueryLimits}

/-! ## What passes the check -/

/-- A comparison passes the count of its candidates unless it is given a list that is longer than its operator
allows. A value that is no list has no candidates to count. -/
theorem checkCandidates_eq_ok {c : Comparison} :
    limits.checkCandidates c = .ok () ↔ ∀ limit items, limits.maxCandidates? c.operator = some limit →
      c.value = .arr items → items.length ≤ limit := by
  obtain ⟨field, operator, value⟩ := c
  simp only [checkCandidates]
  cases limits.maxCandidates? operator with
  | none => simp
  | some limit => cases value <;> simp [Json.toArray?]

/-- The check of comparisons returns the field of their inequalities, which is the only one. -/
theorem checkComparisons_eq_ok {known found : Option String} {cs : List Comparison} :
    limits.checkComparisons known cs = .ok found ↔
      (∀ c ∈ cs, limits.checkCandidates c = .ok ()) ∧
        (∀ c ∈ cs, c.operator.isInequality = true → found = some c.field.path) ∧
        found = known.or ((cs.find? (·.operator.isInequality)).map (·.field.path)) := by
  induction cs generalizing known with
  | nil =>
    refine ⟨fun h => ⟨fun _ hc => (nomatch hc), fun _ hc => (nomatch hc), ?_⟩, fun h => ?_⟩
    · cases h
      exact Option.or_none.symm
    · rw [h.2.2]
      exact congrArg Except.ok Option.or_none.symm
  | cons c cs ih =>
    simp only [checkComparisons, Except.bind_eq_ok, List.forall_mem_cons, List.find?_cons]
    cases hop : c.operator.isInequality with
    | false =>
      simp only [Bool.false_eq_true, if_false, ih, false_implies, true_and]
      exact ⟨fun ⟨_, hc, hcs, hrest⟩ => ⟨⟨hc, hcs⟩, hrest⟩, fun ⟨⟨hc, hcs⟩, hrest⟩ => ⟨(), hc, hcs, hrest⟩⟩
    | true =>
      -- the first inequality fixes the field, and every later one is compared with it
      cases known with
      | none =>
        simp only [if_true, ih, true_implies, Option.none_or, Option.some_or, Option.map_some]
        exact ⟨fun ⟨_, hc, hcs, hrest, hfound⟩ => ⟨⟨hc, hcs⟩, ⟨hfound, hrest⟩, hfound⟩,
          fun ⟨⟨hc, hcs⟩, ⟨hfound, hrest⟩, _⟩ => ⟨(), hc, hcs, hrest, hfound⟩⟩
      | some path =>
        simp only [if_true, true_implies, Option.some_or]
        split
        next hpath =>
          simp only [ih, Option.some_or]
          exact ⟨fun ⟨_, hc, hcs, hrest, hfound⟩ =>
              ⟨⟨hc, hcs⟩, ⟨hfound.trans (congrArg some hpath), hrest⟩, hfound⟩,
            fun ⟨⟨hc, hcs⟩, ⟨_, hrest⟩, hfound⟩ => ⟨(), hc, hcs, hrest, hfound⟩⟩
        next hpath =>
          refine ⟨fun ⟨_, _, h⟩ => (by cases h), fun ⟨_, ⟨hc, _⟩, hfound⟩ => ?_⟩
          exact absurd (Option.some.inj (hfound.symm.trans hc)) hpath

/-- The leading order passes if there is no inequality, or no ordering, or the first key is on the field of
the inequalities. -/
theorem checkLeadingOrder_eq_ok {field : Option String} {orderBy : List SortKey} :
    checkLeadingOrder field orderBy = .ok () ↔
      ∀ path, field = some path → ∀ key ∈ orderBy.head?, key.field.path = path := by
  cases field with
  | none => simp [checkLeadingOrder]
  | some path => cases orderBy <;> simp [checkLeadingOrder]

/-- Conditions pass the check with an ordering if and only if they keep to the limits, their inequalities
are on one field, and that field leads the ordering. -/
theorem checkConditions_eq_ok {conditions : List Condition} {orderBy : List SortKey} :
    limits.checkConditions conditions orderBy = .ok () ↔
      (∀ c ∈ Condition.comparisonsOf conditions, limits.checkCandidates c = .ok ()) ∧
        ∀ c ∈ Condition.comparisonsOf conditions, c.operator.isInequality = true →
          ((Condition.comparisonsOf conditions).find? (·.operator.isInequality)).map (·.field.path) =
              some c.field.path ∧
            ∀ key ∈ orderBy.head?, key.field.path = c.field.path := by
  simp only [checkConditions, Except.bind_eq_ok, checkComparisons_eq_ok, checkLeadingOrder_eq_ok,
    Option.none_or]
  constructor
  · rintro ⟨_, ⟨hcandidates, hfield, rfl⟩, hleading⟩
    exact ⟨hcandidates, fun c hc hop => ⟨hfield c hc hop, hleading _ (hfield c hc hop)⟩⟩
  · rintro ⟨hcandidates, hfield⟩
    refine ⟨_, ⟨hcandidates, fun c hc hop => (hfield c hc hop).1, rfl⟩, fun path hpath => ?_⟩
    obtain ⟨c, hc, rfl⟩ := Option.map_eq_some_iff.mp hpath
    exact (hfield c (List.mem_of_find?_eq_some hc) (by simpa using List.find?_some hc)).2

/-! ## What is allowed -/

/-- Comparisons that the store takes together with an ordering. It is said of them all at once and without the
check; their order does not matter for it. -/
structure Allows (limits : QueryLimits) (cs : List Comparison) (orderBy : List SortKey) : Prop where
  /-- A list of candidates for membership is no longer than the limit for those. -/
  candidates : ∀ c ∈ cs, c.operator = .isIn ∨ c.operator = .arrayContainsAny →
    ∀ items, c.value = .arr items → items.length ≤ limits.maxIn
  /-- A list of excluded values has a limit of its own. -/
  excluded : ∀ c ∈ cs, c.operator = .notIn → ∀ items, c.value = .arr items →
    items.length ≤ limits.maxNotIn
  /-- All inequalities are on one field. Two of them on it are fine, as a range needs. -/
  oneField : ∀ c ∈ cs, ∀ c' ∈ cs, c.operator.isInequality = true →
    c'.operator.isInequality = true → c.field.path = c'.field.path
  /-- The field of the inequalities leads the ordering, if there is one. -/
  leading : ∀ c ∈ cs, c.operator.isInequality = true → ∀ key ∈ orderBy.head?,
    key.field.path = c.field.path

/-- How a comparison offends after others, and the error that says so. Candidates are limited for each
comparison alone; only the field of an inequality depends on what stands before. -/
inductive Offends (limits : QueryLimits) (before : List Comparison) (c : Comparison) :
    QueryError → Prop
  /-- There are more candidates than the operator allows; the error counts both. -/
  | candidates {limit : Nat} {items : List Json}
      (hlimit : limits.maxCandidates? c.operator = some limit) (hvalue : c.value = .arr items)
      (hlong : limit < items.length) :
      Offends limits before c
        (.cardinalityExceeded c.field.property c.operator items.length limit)
  /-- An inequality is on another field than the inequality of a comparison before it. -/
  | field {b : Comparison} (hb : b ∈ before) (hbefore : b.operator.isInequality = true)
      (hop : c.operator.isInequality = true) (hne : b.field.path ≠ c.field.path)
      -- the candidates are counted first
      (hshort : ∀ limit items, limits.maxCandidates? c.operator = some limit →
        c.value = .arr items → items.length ≤ limit) :
      Offends limits before c (.unsupported (.inequalityFields b.field.path c.field.path))

/-- The number of candidates is limited for three operators. -/
theorem checkCandidates_forall {cs : List Comparison} :
    (∀ c ∈ cs, limits.checkCandidates c = .ok ()) ↔
      (∀ c ∈ cs, c.operator = .isIn ∨ c.operator = .arrayContainsAny →
        ∀ items, c.value = .arr items → items.length ≤ limits.maxIn) ∧
      ∀ c ∈ cs, c.operator = .notIn → ∀ items, c.value = .arr items →
        items.length ≤ limits.maxNotIn := by
  rw [← forall₂_and]
  refine forall₂_congr fun c _ => ?_
  rw [checkCandidates_eq_ok]
  cases hop : c.operator <;> simp only [maxCandidates?, reduceCtorEq, Option.some.injEq, or_self,
    or_true, true_or, false_implies, true_implies, implies_true, and_self, and_true, true_and]
  -- what is left are the three operators with a limit
  all_goals exact ⟨fun h items => h _ items rfl, fun h limit items hlimit => hlimit ▸ h items⟩

/-- The inequalities are on one field exactly if they are on the field of the first of them. -/
theorem oneField_iff {cs : List Comparison} :
    (∀ c ∈ cs, ∀ c' ∈ cs, c.operator.isInequality = true → c'.operator.isInequality = true →
        c.field.path = c'.field.path) ↔
      ∀ c ∈ cs, c.operator.isInequality = true →
        (cs.find? (·.operator.isInequality)).map (·.field.path) = some c.field.path := by
  constructor
  · intro h c hc hop
    cases hfind : cs.find? (·.operator.isInequality) with
    | none => exact absurd hop (List.find?_eq_none.mp hfind c hc)
    | some b =>
      have hb : b.operator.isInequality = true := by simpa using List.find?_some hfind
      exact congrArg some (h b (List.mem_of_find?_eq_some hfind) c hc hb hop)
  · intro h c hc c' hc' hop hop'
    exact Option.some.inj ((h c hc hop).symm.trans (h c' hc' hop'))

/-- What is allowed, in terms of the check of one comparison and of the first inequality, as the scan finds
it. -/
theorem allows_iff {cs : List Comparison} {orderBy : List SortKey} :
    limits.Allows cs orderBy ↔ (∀ c ∈ cs, limits.checkCandidates c = .ok ()) ∧
      ∀ c ∈ cs, c.operator.isInequality = true →
        (cs.find? (·.operator.isInequality)).map (·.field.path) = some c.field.path ∧
          ∀ key ∈ orderBy.head?, key.field.path = c.field.path := by
  constructor
  · intro h
    refine ⟨checkCandidates_forall.mpr ⟨h.candidates, h.excluded⟩, fun c hc hop => ?_⟩
    exact ⟨oneField_iff.mp h.oneField c hc hop, h.leading c hc hop⟩
  · rintro ⟨hcandidates, hfield⟩
    obtain ⟨hin, hnotIn⟩ := checkCandidates_forall.mp hcandidates
    exact ⟨hin, hnotIn, oneField_iff.mpr fun c hc hop => (hfield c hc hop).1,
      fun c hc hop => (hfield c hc hop).2⟩

/-- Comparisons that are allowed without an ordering pass the check, which returns the field of the first
inequality. -/
theorem checkComparisons_none_eq_ok {cs : List Comparison} {found : Option String} :
    limits.checkComparisons none cs = .ok found ↔ limits.Allows cs [] ∧
      found = (cs.find? (·.operator.isInequality)).map (·.field.path) := by
  rw [checkComparisons_eq_ok, allows_iff, Option.none_or]
  constructor
  · rintro ⟨hcandidates, hfield, rfl⟩
    exact ⟨⟨hcandidates, fun c hc hop => ⟨hfield c hc hop, by simp⟩⟩, rfl⟩
  · rintro ⟨⟨hcandidates, hfield⟩, rfl⟩
    exact ⟨hcandidates, fun c hc hop => (hfield c hc hop).1, rfl⟩

/-! ## Why the check fails -/

/-- The check goes on with what it has found. -/
theorem checkComparisons_append (known : Option String) (as bs : List Comparison) :
    limits.checkComparisons known (as ++ bs) =
      limits.checkComparisons known as >>= fun found => limits.checkComparisons found bs := by
  induction as generalizing known with
  | nil => rfl
  | cons a as ih =>
    simp only [List.cons_append, checkComparisons, ih]
    cases limits.checkCandidates a with
    | error e => rfl
    | ok _ =>
      cases a.operator.isInequality with
      | false => rfl
      | true =>
        cases known with
        | none => rfl
        | some path => by_cases h : path = a.field.path <;> simp only [h] <;> rfl

/-- The check fails at the first comparison at which it fails after those before it. -/
theorem checkComparisons_eq_error {known : Option String} {cs : List Comparison} {e : QueryError} :
    limits.checkComparisons known cs = .error e ↔
      ∃ before c after found, cs = before ++ c :: after ∧
        limits.checkComparisons known before = .ok found ∧
          limits.checkComparisons found [c] = .error e := by
  constructor
  · intro h
    induction cs generalizing known with
    | nil => exact nomatch h
    | cons c cs ih =>
      rw [show c :: cs = [c] ++ cs from rfl, checkComparisons_append, Except.bind_eq_error] at h
      rcases h with h | ⟨next, hnext, h⟩
      · exact ⟨[], c, cs, known, rfl, rfl, h⟩
      · obtain ⟨before, c', after, found, rfl, hbefore, hc'⟩ := ih h
        refine ⟨c :: before, c', after, found, rfl, ?_, hc'⟩
        rw [show c :: before = [c] ++ before from rfl, checkComparisons_append, hnext]
        exact hbefore
  · rintro ⟨before, c, after, found, rfl, hbefore, hc⟩
    rw [checkComparisons_append, hbefore, show c :: after = [c] ++ after from rfl]
    show limits.checkComparisons found ([c] ++ after) = _
    rw [checkComparisons_append, hc]
    rfl

/-- Candidates are refused when there are too many. -/
theorem checkCandidates_eq_error {c : Comparison} {e : QueryError} :
    limits.checkCandidates c = .error e ↔ ∃ limit items, limits.maxCandidates? c.operator = some limit ∧
      c.value = .arr items ∧ limit < items.length ∧
        e = .cardinalityExceeded c.field.property c.operator items.length limit := by
  unfold checkCandidates
  cases limits.maxCandidates? c.operator with
  | none => simp
  | some limit =>
    cases c.value with
    | arr items =>
      by_cases hlong : limit < items.length <;> simp [Json.toArray?, hlong, eq_comm]
    | _ => simp [Json.toArray?]

/-- The check fails at one comparison that has too many candidates, or is an inequality on another field than
those before it. -/
theorem checkComparisons_singleton_eq_error {found : Option String} {c : Comparison} {e : QueryError} :
    limits.checkComparisons found [c] = .error e ↔ limits.checkCandidates c = .error e ∨
      limits.checkCandidates c = .ok () ∧ c.operator.isInequality = true ∧
        ∃ path, found = some path ∧ path ≠ c.field.path ∧
          e = .unsupported (.inequalityFields path c.field.path) := by
  simp only [checkComparisons, Except.bind_eq_error]
  refine or_congr_right ?_
  constructor
  · rintro ⟨⟨⟩, hcandidates, h⟩
    split at h
    next hop =>
      cases found with
      | none => exact nomatch h
      | some path =>
        dsimp only at h
        split at h
        · exact nomatch h
        next hne =>
          cases h
          exact ⟨hcandidates, hop, path, rfl, hne, rfl⟩
    · exact nomatch h
  · rintro ⟨hcandidates, hop, path, rfl, hne, rfl⟩
    refine ⟨(), hcandidates, ?_⟩
    rw [if_pos hop]
    exact if_neg hne

/-- After comparisons that pass, the check fails at a comparison with what it offends by. -/
theorem checkComparisons_eq_error_iff_offends {before : List Comparison} {found : Option String}
    (hbefore : limits.checkComparisons none before = .ok found) {c : Comparison} {e : QueryError} :
    limits.checkComparisons found [c] = .error e ↔ limits.Offends before c e := by
  obtain ⟨hallows, hfound⟩ := checkComparisons_none_eq_ok.mp hbefore
  have hpath : ∀ b ∈ before, b.operator.isInequality = true → found = some b.field.path := by
    intro b hb hop
    rw [hfound]
    exact oneField_iff.mp hallows.oneField b hb hop
  rw [checkComparisons_singleton_eq_error, checkCandidates_eq_error]
  constructor
  · rintro (⟨limit, items, hlimit, hvalue, hlong, rfl⟩ | ⟨hcandidates, hop, path, hsome, hne, rfl⟩)
    · exact .candidates hlimit hvalue hlong
    · rw [hfound] at hsome
      obtain ⟨b, hfind, rfl⟩ := Option.map_eq_some_iff.mp hsome
      have hb : b.operator.isInequality = true := by simpa using List.find?_some hfind
      exact .field (List.mem_of_find?_eq_some hfind) hb hop hne (checkCandidates_eq_ok.mp hcandidates)
  · intro h
    cases h with
    | candidates hlimit hvalue hlong => exact .inl ⟨_, _, hlimit, hvalue, hlong, rfl⟩
    | field hb hopb hop hne hshort =>
      exact .inr ⟨checkCandidates_eq_ok.mpr hshort, hop, _, hpath _ hb hopb, hne, rfl⟩

/-- An ordering is refused if it is led by another field than that of the inequalities, and the error names
both. -/
theorem checkLeadingOrder_eq_error {field : Option String} {orderBy : List SortKey} {e : QueryError} :
    checkLeadingOrder field orderBy = .error e ↔ ∃ path, field = some path ∧
      ∃ key ∈ orderBy.head?, key.field.path ≠ path ∧
        e = .unsupported (.inequalityOrder path key.field.path) := by
  cases field with
  | none => simp [checkLeadingOrder]
  | some path =>
    cases orderBy with
    | nil => simp [checkLeadingOrder]
    | cons key keys =>
      by_cases hpath : key.field.path = path <;>
        simp [checkLeadingOrder, hpath, eq_comm (a := e)]

/-- The check accepts conditions with an ordering exactly if their comparisons are allowed with it, at
whatever depth they stand. It fails in two ways only: with what a comparison offends by, the first one that is
not allowed after those before it, or, when all comparisons are allowed, with an ordering that is led by
another field than that of their inequalities.

There are no hypotheses: the limits may be any numbers, zero included, and the conditions may be nested and
empty at will. -/
theorem checkConditions_allows (limits : QueryLimits) (conditions : List Condition)
    (orderBy : List SortKey) :
    (limits.checkConditions conditions orderBy = .ok () ↔
      limits.Allows (Condition.comparisonsOf conditions) orderBy) ∧
    ∀ e, limits.checkConditions conditions orderBy = .error e ↔
      (∃ before c after, Condition.comparisonsOf conditions = before ++ c :: after ∧
        limits.Allows before [] ∧ limits.Offends before c e) ∨
      limits.Allows (Condition.comparisonsOf conditions) [] ∧
        ∃ c ∈ Condition.comparisonsOf conditions, c.operator.isInequality = true ∧
          ∃ key ∈ orderBy.head?, key.field.path ≠ c.field.path ∧
            e = .unsupported (.inequalityOrder c.field.path key.field.path) := by
  refine ⟨checkConditions_eq_ok.trans allows_iff.symm, fun e => ?_⟩
  rw [checkConditions, Except.bind_eq_error]
  refine or_congr ?_ ?_
  -- the comparisons are checked in order, so the first offender is the one before which all is allowed
  · rw [checkComparisons_eq_error]
    constructor
    · rintro ⟨before, c, after, found, hsplit, hbefore, hc⟩
      exact ⟨before, c, after, hsplit, (checkComparisons_none_eq_ok.mp hbefore).1,
        (checkComparisons_eq_error_iff_offends hbefore).mp hc⟩
    · rintro ⟨before, c, after, hsplit, hallows, hc⟩
      have hbefore := checkComparisons_none_eq_ok.mpr ⟨hallows, rfl⟩
      exact ⟨before, c, after, _, hsplit, hbefore,
        (checkComparisons_eq_error_iff_offends hbefore).mpr hc⟩
  · constructor
    · rintro ⟨found, hfound, h⟩
      obtain ⟨hallows, hfirst⟩ := checkComparisons_none_eq_ok.mp hfound
      obtain ⟨path, rfl, key, hkey, hne, rfl⟩ := checkLeadingOrder_eq_error.mp h
      obtain ⟨c, hfind, rfl⟩ := Option.map_eq_some_iff.mp hfirst.symm
      have hop : c.operator.isInequality = true := by simpa using List.find?_some hfind
      exact ⟨hallows, c, List.mem_of_find?_eq_some hfind, hop, key, hkey, hne, rfl⟩
    · rintro ⟨hallows, c, hc, hop, key, hkey, hne, rfl⟩
      refine ⟨_, checkComparisons_none_eq_ok.mpr ⟨hallows, rfl⟩, ?_⟩
      exact checkLeadingOrder_eq_error.mpr
        ⟨_, oneField_iff.mp hallows.oneField c hc hop, key, hkey, hne, rfl⟩

end QueryLimits

end DocumentQuery
