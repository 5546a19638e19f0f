import DocumentQuery.Proofs.Plan.Disjunction
import DocumentQuery.Proofs.Predicate.Meaning
import DocumentQuery.Proofs.Store.Contents

/-!
# From filters to conditions

Binding replaces the operands of a filter by values, and joins conditions without nesting like in like.
The conditions let exactly those documents through of which the filter holds
(`Filter.bind_accepts`), and a filter can be bound exactly if each of its clauses can
(`Filter.exists_bindAll`). A single condition that asks for one identity becomes a lookup, which finds the
document the condition lets through (`Access.ofConditions_covers`).

What is bound is compared document by document, so the statements hold of every document there could be and
not only of those in a store. A clause may be refused for its value, and then the filter has no conditions at
all; the meaning of the filter is nevertheless defined, since it looks at each clause alone.
-/

namespace DocumentQuery

variable {m : Model} {bindings : Bindings} {d : Document}

/-! ## Joined conditions -/

namespace StoreFilter

/-- A document is accepted by one of two lists of filters if one of the lists has a filter that accepts it. -/
theorem anyAccepts_append (d : Document) (fs gs : List StoreFilter) :
    anyAccepts d (fs ++ gs) = (anyAccepts d fs || anyAccepts d gs) := by
  induction fs with
  | nil => simp [anyAccepts]
  | cons f fs ih => simp [anyAccepts, ih, Bool.or_assoc]

end StoreFilter

namespace Condition

open StoreFilter (allAccept anyAccepts accepts)

/-- Taking a disjunction apart does not change which documents it lets through. -/
theorem anyAccepts_alternatives (d : Document) (c : Condition) :
    anyAccepts d (toFilters c.alternatives) = accepts d c.toFilter := by
  cases c <;> simp [alternatives, toFilters, anyAccepts, toFilter, accepts]

/-- Neither does taking a conjunction apart. -/
theorem allAccept_conjuncts (d : Document) (c : Condition) :
    allAccept d (toFilters c.conjuncts) = accepts d c.toFilter := by
  cases c <;> simp [conjuncts, toFilters, allAccept, toFilter, accepts]

theorem anyAccepts_flatMap_alternatives (d : Document) (cs : List Condition) :
    anyAccepts d (toFilters (cs.flatMap alternatives)) = anyAccepts d (toFilters cs) := by
  induction cs with
  | nil => rfl
  | cons c cs ih =>
    rw [List.flatMap_cons, toFilters_append, StoreFilter.anyAccepts_append, anyAccepts_alternatives, ih,
      toFilters, anyAccepts]

theorem allAccept_flatMap_conjuncts (d : Document) (cs : List Condition) :
    allAccept d (toFilters (cs.flatMap conjuncts)) = allAccept d (toFilters cs) := by
  induction cs with
  | nil => rfl
  | cons c cs ih =>
    rw [List.flatMap_cons, toFilters_append, StoreFilter.allAccept_append, allAccept_conjuncts, ih,
      toFilters, allAccept]

/-- A joined condition lets a document through when one of the conditions does. -/
theorem accepts_anyOf (d : Document) (cs : List Condition) :
    accepts d (anyOf cs).toFilter = anyAccepts d (toFilters cs) := by
  rw [← anyAccepts_flatMap_alternatives]
  unfold anyOf
  split
  next c hc => simp [hc, toFilters, anyAccepts]
  · rfl

/-- A joined condition lets a document through when all conditions do. -/
theorem accepts_allOf (d : Document) (cs : List Condition) :
    accepts d (allOf cs).toFilter = allAccept d (toFilters cs) := by
  rw [← allAccept_flatMap_conjuncts]
  unfold allOf
  split
  next c hc => simp [hc, toFilters, allAccept]
  · rfl

end Condition

/-! ## Filters -/

namespace Filter

open StoreFilter (allAccept anyAccepts accepts)

/-- A bound clause lets exactly those documents through of which the clause holds. -/
theorem clause_accepts {c : Clause} {comparison : Comparison}
    (h : c.bind m bindings = .ok comparison) :
    accepts d comparison.toFilter = c.holds m bindings d := by
  obtain ⟨hbound, hfield, hoperator, -⟩ := Clause.bind_eq_ok h
  have hbound : c.value.bindFor m bindings c.field = .ok comparison.value := hbound
  simp only [Comparison.toFilter, accepts, Clause.holds, FieldRef.compares, hbound, hfield, hoperator]
  cases d.field? c.field.path <;> rfl

mutual

/-- A bound filter lets exactly those documents through of which the filter holds, and its clauses can be
bound. -/
theorem bind_accepts (f : Filter) {condition : Condition} (h : f.bind m bindings = .ok condition) :
    accepts d condition.toFilter = f.holds m bindings d ∧ ∀ c ∈ f.clauses, c.Binds m bindings := by
  cases f with
  | clause c =>
    obtain ⟨comparison, hbind, h⟩ := Except.bind_eq_ok.mp h
    cases h
    exact ⟨clause_accepts hbind, fun c' hc => (List.mem_singleton.mp hc) ▸ ⟨comparison, hbind⟩⟩
  | or members =>
    obtain ⟨conditions, hbind, h⟩ := Except.bind_eq_ok.mp h
    cases h
    obtain ⟨-, hany, hbinds⟩ := bindEach_accepts members hbind
    exact ⟨(Condition.accepts_anyOf d conditions).trans hany, hbinds⟩
  | and members =>
    obtain ⟨conditions, hbind, h⟩ := Except.bind_eq_ok.mp h
    cases h
    obtain ⟨hall, -, hbinds⟩ := bindEach_accepts members hbind
    exact ⟨(Condition.accepts_allOf d conditions).trans hall, hbinds⟩

theorem bindEach_accepts (fs : List Filter) {conditions : List Condition}
    (h : bindEach m bindings fs = .ok conditions) :
    allAccept d (Condition.toFilters conditions) = allHold m bindings d fs ∧
      anyAccepts d (Condition.toFilters conditions) = anyHolds m bindings d fs ∧
      ∀ c ∈ clausesOf fs, c.Binds m bindings := by
  cases fs with
  | nil =>
    cases h
    exact ⟨rfl, rfl, fun c hc => absurd hc List.not_mem_nil⟩
  | cons f fs =>
    obtain ⟨condition, hf, h⟩ := Except.bind_eq_ok.mp h
    obtain ⟨rest, hfs, h⟩ := Except.bind_eq_ok.mp h
    cases h
    obtain ⟨hfirst, hbinds⟩ := bind_accepts f hf
    obtain ⟨hall, hany, hrest⟩ := bindEach_accepts fs hfs
    refine ⟨?_, ?_, fun c hc => (List.mem_append.mp hc).elim (hbinds c) (hrest c)⟩
    · rw [Condition.toFilters, allAccept, hfirst, hall, allHold]
    · rw [Condition.toFilters, anyAccepts, hfirst, hany, anyHolds]

end

/-- The conditions of filters let exactly those documents through of which all filters hold. -/
theorem bindAll_accepts {fs : List Filter} {conditions : List Condition}
    (h : bindAll m bindings fs = .ok conditions) :
    allAccept d (Condition.toFilters conditions) = allHold m bindings d fs ∧
      ∀ c ∈ clausesOf fs, c.Binds m bindings := by
  obtain ⟨each, hbind, h⟩ := Except.bind_eq_ok.mp h
  cases h
  obtain ⟨hall, -, hbinds⟩ := bindEach_accepts (d := d) fs hbind
  exact ⟨(Condition.allAccept_flatMap_conjuncts d each).trans hall, hbinds⟩

mutual

/-- A filter can be bound if each of its clauses can. -/
theorem exists_bind (f : Filter) (h : ∀ c ∈ f.clauses, c.Binds m bindings) :
    ∃ condition, f.bind m bindings = .ok condition := by
  cases f with
  | clause c =>
    obtain ⟨comparison, hc⟩ := h c (List.mem_singleton_self c)
    exact ⟨.compare comparison, Except.bind_eq_ok.mpr ⟨comparison, hc, rfl⟩⟩
  | or members =>
    obtain ⟨conditions, hconditions⟩ := exists_bindEach members h
    exact ⟨_, Except.bind_eq_ok.mpr ⟨conditions, hconditions, rfl⟩⟩
  | and members =>
    obtain ⟨conditions, hconditions⟩ := exists_bindEach members h
    exact ⟨_, Except.bind_eq_ok.mpr ⟨conditions, hconditions, rfl⟩⟩

theorem exists_bindEach (fs : List Filter) (h : ∀ c ∈ clausesOf fs, c.Binds m bindings) :
    ∃ conditions, bindEach m bindings fs = .ok conditions := by
  cases fs with
  | nil => exact ⟨[], rfl⟩
  | cons f fs =>
    obtain ⟨condition, hf⟩ := exists_bind f fun c hc => h c (List.mem_append_left _ hc)
    obtain ⟨rest, hfs⟩ := exists_bindEach fs fun c hc => h c (List.mem_append_right _ hc)
    exact ⟨condition :: rest, Except.bind_eq_ok.mpr ⟨condition, hf,
      Except.bind_eq_ok.mpr ⟨rest, hfs, rfl⟩⟩⟩

end

/-- Filters whose clauses can be bound become conditions that let the documents through of which the filters
hold. The clauses are all that can be refused: groups never are. -/
theorem exists_bindAll {fs : List Filter} (h : ∀ c ∈ clausesOf fs, c.Binds m bindings) :
    ∃ conditions, bindAll m bindings fs = .ok conditions ∧
      ∀ d, (Condition.foldAll conditions).all (·.accepts d) = allHold m bindings d fs := by
  obtain ⟨each, heach⟩ := exists_bindEach fs h
  have hbind : bindAll m bindings fs = .ok (each.flatMap Condition.conjuncts) :=
    Except.bind_eq_ok.mpr ⟨each, heach, rfl⟩
  refine ⟨_, hbind, fun d => ?_⟩
  rw [Condition.foldAll_accepts]
  exact (bindAll_accepts hbind).1

end Filter

/-! ## Accesses -/

namespace Document

/-- The identity is a field of every document. -/
theorem field?_documentId (d : Document) {field : FieldRef} (h : field.isDocumentId = true) :
    d.field? field.path = some (.str d.id) := by
  rw [FieldRef.isDocumentId, beq_iff_eq] at h
  rw [field?, if_pos h]

end Document

namespace Access

/-- Whether an access is for a document of a collection: it asks for its identity, or for conditions it meets.
The document is given by what it is stored under, which is what a lookup goes by. -/
def admits (collection id : String) (data : Json) : Access → Bool
  | .document key => id == key
  | .collection conditions =>
    (Condition.foldAll conditions).all (·.accepts ⟨Document.pathOf collection id, data⟩)

/-- Whether an access is for a document, which goes by the last segment of its path. -/
def covers (d : Document) : Access → Bool
  | .document key => d.id == key
  | .collection conditions => (Condition.foldAll conditions).all (·.accepts d)

/-- The documents of a collection go by what they are stored under, if that is a single segment. -/
theorem admits_eq_covers (collection : String) {id : String} (data : Json) (hid : '/' ∉ id.toList)
    (access : Access) :
    access.admits collection id data = access.covers ⟨Document.pathOf collection id, data⟩ := by
  cases access with
  | document key => rw [admits, covers, Document.id_pathOf collection data hid]
  | collection conditions => rfl

/-- An access by conditions is for the documents that all conditions let through. -/
theorem ofConditions_covers (d : Document) (conditions : List Condition) :
    (ofConditions conditions).covers d = StoreFilter.allAccept d (Condition.toFilters conditions) := by
  rw [← Condition.foldAll_accepts]
  unfold ofConditions
  split
  next field key =>
    split
    next hfield =>
      simp only [covers, Condition.foldAll, Condition.toFilters, Condition.toFilter,
        Condition.conjunction, Comparison.toFilter, StoreFilter.accepts, Option.all_some,
        Document.field?_documentId _ hfield]
      rfl
    · rfl
  · rfl

end Access

end DocumentQuery
