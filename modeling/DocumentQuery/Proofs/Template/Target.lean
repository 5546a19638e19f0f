import DocumentQuery.Proofs.Predicate.Filtering

/-!
# The target of a template

A template addresses one document by its identity as long as the identity is all that was asked for. The
first filter may become the target, the second one turns the target back into a filter, and from then on
filters are only collected. `Template.Carries` says what a template is after given filters, without the way
it got there: whether it looks a document up, and what its filters are.

One filter more keeps this true (`Template.Carries.addFilter`), so it is true after any number of filters
(`Template.foldl_addFilter_carries`). No filter is lost: written out, the target and the filters are always
the filters that were added (`Template.Carries.explicitFilters_eq`).

The disjunctions of a template are noted beside its filters, and a target has none of them. What a template
carries is therefore said in three parts: when there is a target, that it is alone, and what the filters are
otherwise.

## Main definitions

* `Template.Carries` — a template to which given filters were added
-/

namespace DocumentQuery

/-- A clause asks for one identity if it compares the identity of the document for equality. -/
theorem Clause.isKeyEquality_iff {c : Clause} :
    c.isKeyEquality = true ↔ c.field.path = documentIdPath ∧ c.operator = .equalTo := by
  rw [isKeyEquality, FieldRef.isDocumentId, Bool.and_eq_true, beq_iff_eq, beq_iff_eq]

namespace Template

/-- A template to which filters were added, one after the other. -/
structure Carries (key : String) (fs : List Filter) (t : Template) : Prop where
  /-- An identity is the target exactly if a clause for it is the only filter. -/
  target : ∀ id, t.target = .document id ↔ ∃ c, fs = [.clause c] ∧ c.field.path = documentIdPath ∧
    c.operator = .equalTo ∧ c.value = id
  /-- Nothing else restricts a document that is looked up, a disjunction neither. -/
  alone : t.isLookup = true → t.filters = [] ∧ t.hasDisjunction = false
  /-- Otherwise the filters are in the order in which they were added, a leading clause for an identity
  written with the key. -/
  filters : t.isLookup = false → t.filters = spelled key fs

variable {key : String} {fs : List Filter} {t : Template}

/-- There is a filter as it is written if there is a filter. -/
theorem spelled_eq_nil_iff : spelled key fs = [] ↔ fs = [] := by
  rcases fs with _ | ⟨_ | _ | _, rest⟩ <;> simp [spelled]

/-- Only the first filter is written with the key. -/
theorem spelled_append (hne : fs ≠ []) (f : Filter) :
    spelled key (fs ++ [f]) = spelled key fs ++ [f] := by
  obtain ⟨first, rest, rfl⟩ := List.exists_cons_of_ne_nil hne
  cases first <;> rfl

/-- A filter that asks for no identity is written as it is. -/
theorem spelled_singleton {f : Filter} (h : ∀ c, f = .clause c → c.isKeyEquality = false) :
    spelled key [f] = [f] := by
  cases f with
  | clause c => rw [spelled, h c rfl, if_neg Bool.false_ne_true]
  | or members => rfl
  | and members => rfl

/-- A filter becomes the target if it asks for an identity and is the first one. Otherwise it comes after
the filters that are there, a target written out among them. -/
theorem addFilter_cases (t : Template) (f : Filter) :
    (∃ c, f = .clause c ∧ c.isKeyEquality = true ∧ t.explicitFilters = [] ∧
        t.addFilter f = { t with target := .document c.value, filters := [] }) ∨
      (∀ c, f = .clause c → t.explicitFilters = [] → c.isKeyEquality = false) ∧
        t.addFilter f = { t with target := .collection, filters := t.explicitFilters ++ [f] } := by
  unfold addFilter
  cases f with
  | or members => exact .inr ⟨fun c hc => (nomatch hc), rfl⟩
  | and members => exact .inr ⟨fun c hc => (nomatch hc), rfl⟩
  | clause c =>
    dsimp only
    split
    next h =>
      obtain ⟨hkey, hempty⟩ := Bool.and_eq_true_iff.mp h
      have hnil : t.explicitFilters = [] := List.isEmpty_iff.mp hempty
      exact .inl ⟨c, rfl, hkey, hnil, by rw [hnil]⟩
    next h =>
      refine .inr ⟨fun other hother hnil => ?_, rfl⟩
      cases hother
      rw [hnil, List.isEmpty_nil, Bool.and_true] at h
      exact Bool.eq_false_iff.mpr h

/-- Written out, the target and the filters are the filters that were added. -/
theorem Carries.explicitFilters_eq (h : t.Carries key fs) (hkey : t.keyProperty = key) :
    t.explicitFilters = spelled key fs := by
  have hlookup := h.alone
  have hcollection := h.filters
  unfold isLookup at hlookup hcollection
  unfold explicitFilters
  cases htarget : t.target with
  | collection =>
    rw [htarget] at hcollection
    exact hcollection rfl
  | document id =>
    rw [htarget] at hlookup
    obtain ⟨c, rfl, hpath, hop, rfl⟩ := (h.target id).mp htarget
    rw [spelled, if_pos (Clause.isKeyEquality_iff.mpr ⟨hpath, hop⟩), ← hkey]
    exact congrArg (· ++ [_]) (hlookup rfl).1

/-- A template carries one filter more once it is added. -/
theorem Carries.addFilter (h : t.Carries key fs) (hkey : t.keyProperty = key) (f : Filter) :
    (t.addFilter f).Carries key (fs ++ [f]) := by
  have hexplicit : t.explicitFilters = spelled key fs := h.explicitFilters_eq hkey
  rcases addFilter_cases t f with ⟨c, rfl, hidentity, hnil, heq⟩ | ⟨hnot, heq⟩
  · obtain ⟨hpath, hop⟩ := Clause.isKeyEquality_iff.mp hidentity
    obtain rfl : fs = [] := spelled_eq_nil_iff.mp (hexplicit.symm.trans hnil)
    rw [heq]
    refine ⟨fun id => ⟨fun hid => ?_, ?_⟩, fun _ => ⟨rfl, rfl⟩, fun hlookup => nomatch hlookup⟩
    · cases hid
      exact ⟨c, rfl, hpath, hop, rfl⟩
    · rintro ⟨c', hc', -, -, rfl⟩
      cases hc'
      rfl
  · rw [heq]
    refine ⟨fun id => ⟨fun hid => (nomatch hid), ?_⟩, fun hlookup => (nomatch hlookup), fun _ => ?_⟩
    · rintro ⟨c, hc, hpath, hop, -⟩
      obtain ⟨rfl, hf⟩ | ⟨-, hf⟩ := List.append_eq_singleton_iff.mp hc
      · have hidentity : c.isKeyEquality = false := hnot c (List.singleton_inj.mp hf) hexplicit
        rw [Clause.isKeyEquality_iff.mpr ⟨hpath, hop⟩] at hidentity
        exact nomatch hidentity
      · exact nomatch hf
    · show t.explicitFilters ++ [f] = _
      rw [hexplicit]
      by_cases hfirst : fs = []
      · subst hfirst
        exact (spelled_singleton fun c hc => hnot c hc hexplicit).symm
      · exact (spelled_append hfirst f).symm

/-- A fresh template carries whatever filters are added to it, and nothing else of it is changed. The filters
may be any, in any number and order; the statement is by induction on them from their end, with one lemma for
one filter more. -/
theorem foldl_addFilter_carries (collection entityType key : String) (fs : List Filter) :
    (fs.foldl addFilter (all collection entityType key)).Carries key fs ∧
      ∃ target filters, fs.foldl addFilter (all collection entityType key) =
        { all collection entityType key with target := target, filters := filters } := by
  refine ⟨?_, foldl_addFilter_eq fs _⟩
  induction fs using List.reverseRecOn with
  | nil =>
    refine ⟨fun id => ⟨fun hid => (nomatch hid), ?_⟩, fun hlookup => (nomatch hlookup), fun _ => rfl⟩
    rintro ⟨c, hc, -⟩
    exact nomatch hc
  | append_singleton fs f ih =>
    rw [List.foldl_append]
    exact ih.addFilter (foldl_addFilter_keyProperty fs _) f

end Template

end DocumentQuery
