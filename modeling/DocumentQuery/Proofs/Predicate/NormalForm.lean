import DocumentQuery.Proofs.Predicate.Binding

/-!
# The normal form of conditions

Binding joins conditions without nesting like in like. What it yields is in normal form: no disjunction is
a member of a disjunction and no conjunction of a conjunction, and a nested group has no member or several.
Conditions that all have to hold are listed without a conjunction at the top.

The form survives the recursion because joining takes its members apart before it counts them
(`Condition.anyOf`, `Condition.allOf`). A group of one member is replaced by this member, which may turn
out to be of the kind of the group around it; it is then taken apart there, and what comes out of it is of
another kind (`Condition.Normal.of_mem_alternatives`). A group without members is no special case: it stays
a group, or vanishes in a group of its own kind.

On this form a lookup can be read off. The conditions are a lookup exactly if there is one, which compares
the identity with a text (`Access.ofConditions_eq_document`).

The form is not needed for the meaning, which the joined conditions have in any form. It is what makes the
lookup recognizable: a single comparison could otherwise be hidden in groups of one member, and an equal query
would be sent to the collection or not depending on how it was written.

## Main results

* `Filter.bindAll_normalizes` — bound filters keep their meaning and are in normal form
-/

namespace DocumentQuery

/-! ## Normal conditions -/

namespace Condition

/-- Whether a condition is a disjunction. -/
def isOr : Condition → Bool
  | .or _ => true
  | _ => false

/-- Whether a condition is a conjunction. -/
def isAnd : Condition → Bool
  | .and _ => true
  | _ => false

/-- Conditions in normal form: like is not nested in like, and no group has exactly one member. -/
inductive Normal : Condition → Prop
  /-- A comparison is in normal form. -/
  | compare (c : Comparison) : Normal (.compare c)
  /-- A disjunction has no disjunction in it, and not exactly one member. -/
  | or {members : List Condition} (hnormal : ∀ c ∈ members, Normal c)
      (hflat : ∀ c ∈ members, c.isOr = false) (hlength : members.length ≠ 1) : Normal (.or members)
  /-- A conjunction has no conjunction in it, and not exactly one member. -/
  | and {members : List Condition} (hnormal : ∀ c ∈ members, Normal c)
      (hflat : ∀ c ∈ members, c.isAnd = false) (hlength : members.length ≠ 1) : Normal (.and members)

/-- The alternatives of a normal condition are normal, and none is a disjunction. -/
theorem Normal.of_mem_alternatives {c : Condition} (h : c.Normal) :
    ∀ a ∈ c.alternatives, a.Normal ∧ a.isOr = false := by
  cases h with
  | compare comparison => exact List.forall_mem_singleton.mpr ⟨.compare comparison, rfl⟩
  | or hnormal hflat _ => exact fun a ha => ⟨hnormal a ha, hflat a ha⟩
  | and hnormal hflat hlength =>
    exact List.forall_mem_singleton.mpr ⟨.and hnormal hflat hlength, rfl⟩

/-- The conjuncts of a normal condition are normal, and none is a conjunction. -/
theorem Normal.of_mem_conjuncts {c : Condition} (h : c.Normal) :
    ∀ a ∈ c.conjuncts, a.Normal ∧ a.isAnd = false := by
  cases h with
  | compare comparison => exact List.forall_mem_singleton.mpr ⟨.compare comparison, rfl⟩
  | or hnormal hflat hlength =>
    exact List.forall_mem_singleton.mpr ⟨.or hnormal hflat hlength, rfl⟩
  | and hnormal hflat _ => exact fun a ha => ⟨hnormal a ha, hflat a ha⟩

/-- Conditions one of which has to hold are joined to a normal condition. -/
theorem normal_anyOf {cs : List Condition} (h : ∀ c ∈ cs, c.Normal) : (anyOf cs).Normal := by
  have hmembers : ∀ a ∈ cs.flatMap alternatives, a.Normal ∧ a.isOr = false :=
    List.forall_mem_flatMap.mpr fun c hc => (h c hc).of_mem_alternatives
  unfold anyOf
  split
  next c hc =>
    rw [hc] at hmembers
    exact (hmembers c List.mem_cons_self).1
  next hnot =>
    refine .or (fun a ha => (hmembers a ha).1) (fun a ha => (hmembers a ha).2) fun hlength => ?_
    obtain ⟨c, hc⟩ := List.length_eq_one_iff.mp hlength
    exact hnot c hc

/-- Conditions that all have to hold are joined to a normal condition. -/
theorem normal_allOf {cs : List Condition} (h : ∀ c ∈ cs, c.Normal) : (allOf cs).Normal := by
  have hmembers : ∀ a ∈ cs.flatMap conjuncts, a.Normal ∧ a.isAnd = false :=
    List.forall_mem_flatMap.mpr fun c hc => (h c hc).of_mem_conjuncts
  unfold allOf
  split
  next c hc =>
    rw [hc] at hmembers
    exact (hmembers c List.mem_cons_self).1
  next hnot =>
    refine .and (fun a ha => (hmembers a ha).1) (fun a ha => (hmembers a ha).2) fun hlength => ?_
    obtain ⟨c, hc⟩ := List.length_eq_one_iff.mp hlength
    exact hnot c hc

end Condition

/-! ## Bound filters -/

namespace Filter

variable {m : Model} {bindings : Bindings}

mutual

/-- The condition of a filter is normal. -/
theorem normal_bind (f : Filter) {condition : Condition} (h : f.bind m bindings = .ok condition) :
    condition.Normal := by
  cases f with
  | clause c =>
    obtain ⟨comparison, -, h⟩ := Except.bind_eq_ok.mp h
    cases h
    exact .compare comparison
  | or members =>
    obtain ⟨conditions, hmembers, h⟩ := Except.bind_eq_ok.mp h
    cases h
    exact Condition.normal_anyOf (normal_bindEach members hmembers)
  | and members =>
    obtain ⟨conditions, hmembers, h⟩ := Except.bind_eq_ok.mp h
    cases h
    exact Condition.normal_allOf (normal_bindEach members hmembers)

theorem normal_bindEach (fs : List Filter) {conditions : List Condition}
    (h : bindEach m bindings fs = .ok conditions) : ∀ c ∈ conditions, c.Normal := by
  cases fs with
  | nil =>
    cases h
    exact fun c hc => absurd hc List.not_mem_nil
  | cons f fs =>
    obtain ⟨condition, hf, h⟩ := Except.bind_eq_ok.mp h
    obtain ⟨rest, hfs, h⟩ := Except.bind_eq_ok.mp h
    cases h
    exact List.forall_mem_cons.mpr ⟨normal_bind f hf, normal_bindEach fs hfs⟩

end

/-- The conditions of filters that all have to hold are normal, and none is a conjunction. -/
theorem normal_bindAll {fs : List Filter} {conditions : List Condition}
    (h : bindAll m bindings fs = .ok conditions) : ∀ c ∈ conditions, c.Normal ∧ c.isAnd = false := by
  obtain ⟨each, hbind, h⟩ := Except.bind_eq_ok.mp h
  cases h
  exact List.forall_mem_flatMap.mpr fun c hc => (normal_bindEach fs hbind c hc).of_mem_conjuncts

end Filter

/-! ## Lookups -/

/-- An access by conditions is a lookup exactly if there is one condition, which compares the identity with
a text. -/
theorem Access.ofConditions_eq_document {conditions : List Condition} {id : String} :
    ofConditions conditions = .document id ↔
      ∃ field, field.isDocumentId = true ∧ conditions = [.compare ⟨field, .equalTo, .str id⟩] := by
  constructor
  · intro h
    unfold ofConditions at h
    split at h
    next field other =>
      split at h
      next hfield =>
        cases h
        exact ⟨field, hfield, rfl⟩
      · exact nomatch h
    · exact nomatch h
  · rintro ⟨field, hfield, rfl⟩
    simp only [ofConditions, hfield, if_true]

/-- The access of a template that reads a collection follows from the conditions of its filters. -/
theorem Template.bindAccess_of_collection {m : Model} {bindings : Bindings} {t : Template}
    (ht : t.target = .collection) {conditions : List Condition}
    (h : Filter.bindAll m bindings t.filters = .ok conditions) :
    t.bindAccess m bindings = .ok (Access.ofConditions conditions) := by
  simp only [bindAccess, ht]
  exact Except.bind_eq_ok.mpr ⟨conditions, h, rfl⟩

/-- Bound filters keep the meaning of the filters, each clause of which is bound on its own, and are in normal
form. A template that reads a collection becomes a lookup exactly if the form is one comparison of the
identity with a text.

That the filters can be bound is the only hypothesis; they may be nested in any way, with groups of no member
among them. -/
theorem Filter.bindAll_normalizes {m : Model} {bindings : Bindings} {filters : List Filter}
    {conditions : List Condition} (h : bindAll m bindings filters = .ok conditions) :
    (∀ d, (Condition.foldAll conditions).all (·.accepts d) = allHold m bindings d filters) ∧
    (∀ c ∈ clausesOf filters, ∃ comparison, c.bind m bindings = .ok comparison ∧
      ∀ d, comparison.toFilter.accepts d = c.holds m bindings d) ∧
    (∀ c ∈ conditions, c.Normal ∧ c.isAnd = false) ∧
    ∀ t : Template, t.target = .collection → t.filters = filters →
      ∃ access, t.bindAccess m bindings = .ok access ∧ ∀ id, access = .document id ↔
        ∃ field, field.isDocumentId = true ∧ conditions = [.compare ⟨field, .equalTo, .str id⟩] := by
  refine ⟨fun d => ?_, fun c hc => ?_, normal_bindAll h, fun t ht hfilters => ?_⟩
  · rw [Condition.foldAll_accepts]
    exact (bindAll_accepts h).1
  · obtain ⟨comparison, hbind⟩ := (bindAll_accepts (d := default) h).2 c hc
    exact ⟨comparison, hbind, fun d => clause_accepts hbind⟩
  · subst hfilters
    exact ⟨_, Template.bindAccess_of_collection ht h, fun id => Access.ofConditions_eq_document⟩

/-- Notes with a tag. -/
def Clause.tagged (tag : String) : Clause :=
  ⟨⟨"tag", "Tag", .scalar .string, false, none⟩, .equalTo, .constant (.str tag)⟩

/-- Notes with one of three tags, written with groups that vanish: a disjunction comes out of a conjunction
that has no other member. -/
def Filter.taggedNotes : List Filter :=
  [.or [.and [.or [.clause (.tagged "x"), .clause (.tagged "y")]], .and [.clause (.tagged "z")]], .and []]

/-- The condition of the notes with one of three tags. -/
def Condition.taggedNotes : Condition :=
  .or [.compare ⟨(Clause.tagged "x").field, .equalTo, .str "x"⟩,
    .compare ⟨(Clause.tagged "y").field, .equalTo, .str "y"⟩,
    .compare ⟨(Clause.tagged "z").field, .equalTo, .str "z"⟩]

/-- Three tags in groups that vanish are bound to one disjunction of three comparisons. -/
theorem Filter.bindAll_normalizes_taggedNotes :
    bindAll .notes [] taggedNotes = .ok [Condition.taggedNotes] ∧ Condition.taggedNotes.Normal ∧
      ∀ d, (Condition.foldAll [Condition.taggedNotes]).all (·.accepts d) =
        allHold .notes [] d taggedNotes := by
  have hbind : bindAll .notes [] taggedNotes = .ok [Condition.taggedNotes] := rfl
  obtain ⟨hmeaning, -, hnormal, -⟩ := bindAll_normalizes hbind
  exact ⟨hbind, (hnormal _ List.mem_cons_self).1, hmeaning⟩

end DocumentQuery
