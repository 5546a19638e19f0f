import DocumentQuery.Bound.Binding
import DocumentQuery.Compile.Predicate
import DocumentQuery.Plan.Disjunction
import DocumentQuery.Proofs.Ordering.Value
import DocumentQuery.Proofs.Success

/-!
# What predicates and filters mean

A predicate is read as an ordinary boolean expression over atomic tests (`Expr.eval`). An atomic test
compares a stored field with an operand, written on either side of it, or is a boolean member on its own
(`Test`). It holds of a document when the store's comparison holds of the stored value and the bound
value of the operand (`Test.holds`). Nothing here depends on how predicates are compiled.

Filters have a meaning before they are bound, too (`Filter.meaning`), and each step from predicates to
conditions is shown to keep the meaning elsewhere. Negation is the delicate one: the store has no
negation, and a comparison and its opposite both fail on a missing field, on null, and on values of
different kinds. `Clause.Suits` excludes exactly these.

A predicate of which nothing can be said of a document, such as one that compares a text with a number, is
given the value “does not hold” by the definitions, and the statements exclude it by `Expr.Suits`. They could
not say anything about it: the store would answer no for the comparison and no for its opposite.
-/

namespace DocumentQuery

/-! ## Comparisons -/

namespace FilterOp

/-- Whether a comparison orders its operands. -/
def isRange : FilterOp → Bool
  | .lessThan | .lessThanOrEqualTo | .greaterThan | .greaterThanOrEqualTo => true
  | _ => false

/-- A comparison that is written with the expected value on its left. -/
def holdsReversed (op : FilterOp) (actual expected : Json) : Bool :=
  if op.isRange then op.holds expected actual else op.holds actual expected

/-- A comparison that is turned around holds of the operands the other way around. -/
theorem holds_swapped (op : FilterOp) (actual expected : Json) :
    op.swapped.holds actual expected = op.holdsReversed actual expected := by
  have hcomparable : expected.comparable actual = actual.comparable expected := by
    cases actual <;> cases expected <;> rfl
  have hswap := Json.order_swap actual expected
  cases op <;> simp only [swapped, holdsReversed, isRange, holds, hcomparable, ← hswap] <;>
    cases actual.order expected <;> rfl

/-! The opposite of a comparison is of the same sort. -/

/-- The opposite of a comparison orders if the comparison does. -/
theorem isRange_negated {op other : FilterOp} (h : op.negated? = some other) :
    other.isRange = op.isRange := by
  cases op <;> cases h <;> rfl

/-- It takes candidates if the comparison does. -/
theorem takesList_negated {op other : FilterOp} (h : op.negated? = some other) :
    other.takesList = op.takesList := by
  cases op <;> cases h <;> rfl

/-- It is an equality or an inequality of values if the comparison is. -/
theorem isEquality_negated {op other : FilterOp} (h : op.negated? = some other) :
    (other = .equalTo ∨ other = .notEqualTo) ↔ (op = .equalTo ∨ op = .notEqualTo) := by
  cases op <;> cases h <;> simp

/-- The opposite of a comparison holds where the comparison does not: of values that are not null, and of
one kind if they are ordered. -/
theorem holds_negated {op other : FilterOp} (h : op.negated? = some other) {actual expected : Json}
    (hnull : actual = .null → expected = .null)
    (hexpected : op.isRange = true ∨ op.takesList = true → expected ≠ .null)
    (hkind : op.isRange = true → actual.rank = expected.rank) :
    other.holds actual expected = !op.holds actual expected := by
  have hactual : op.isRange = true ∨ op.takesList = true → actual.isNull = false := by
    intro hop
    cases actual <;> first | rfl | exact absurd (hnull rfl) (hexpected hop)
  -- a stored null is compared with null only, and then both comparisons tell
  have hequates : actual.isNull = true → actual.equates expected = true := by
    intro hn
    have hactual : actual = .null := by
      cases actual <;> first | rfl | exact nomatch hn
    rw [hactual, hnull hactual]
    rfl
  cases op <;> cases h
  case equalTo | notEqualTo =>
    simp only [holds]
    cases hn : actual.isNull <;> simp_all
  case isIn | notIn =>
    simp only [holds, hactual (.inr rfl)]
    simp
  -- values of one kind are in order or not
  all_goals
    have hcomparable : actual.comparable expected = true := by
      simp [Json.comparable, hkind rfl, hactual (.inl rfl)]
    simp only [holds, hcomparable]
    cases actual.order expected <;> rfl

end FilterOp

/-- A string is equal to itself only. -/
theorem Json.equates_str_of_ne {a : String} {value : Json} (h : value ≠ .str a) :
    (Json.str a).equates value = false := by
  cases value with
  | str b => exact beq_eq_false_iff_ne.mpr fun hab => h (congrArg Json.str hab.symm)
  | _ => rfl

/-! ## Bound values -/

namespace Operand

/-- The value of an operand that is compared with a field: numbers of variants become names, and numbers that
are compared with the identity become texts. -/
def bindFor (m : Model) (bindings : Bindings) (field : FieldRef) (operand : Operand) :
    Except QueryError Json :=
  operand.bind bindings >>= operand.toVariants m field >>= operand.toIdentities field

/-- The variants of a value are not null if the value is not. -/
theorem variants_ne_null {operand : Operand} {enum : EnumDecl} {name : String} {value v : Json}
    (hvalue : value ≠ .null) (h : operand.variants enum name value = .ok v) : v ≠ .null := by
  unfold variants at h
  split at h
  · obtain ⟨vs, -, rfl⟩ := Except.map_eq_ok.mp h
    exact Json.noConfusion
  · unfold variant at h
    split at h
    · cases h
      exact hvalue
    · split at h
      · cases h
        exact Json.noConfusion
      · exact nomatch h

/-- Nor are its identities. -/
theorem identities_ne_null {operand : Operand} {value v : Json} (hvalue : value ≠ .null)
    (h : operand.identities value = .ok v) : v ≠ .null := by
  unfold identities at h
  split at h
  · obtain ⟨vs, -, hv⟩ := Except.bind_eq_ok.mp h
    cases hv
    exact Json.noConfusion
  · exact absurd rfl hvalue
  · obtain ⟨id, -, rfl⟩ := Except.map_eq_ok.mp h
    exact Json.noConfusion

/-- What is not null stays so when it is converted for a field. -/
theorem convert_ne_null {m : Model} {field : FieldRef} {operand : Operand} {value v : Json}
    (hvalue : value ≠ .null)
    (h : operand.toVariants m field value >>= operand.toIdentities field = .ok v) : v ≠ .null := by
  obtain ⟨converted, hconverted, h⟩ := Except.bind_eq_ok.mp h
  have hne : converted ≠ .null := by
    unfold toVariants at hconverted
    split at hconverted
    · obtain ⟨enum, -, hvariants⟩ := Except.bind_eq_ok.mp hconverted
      exact variants_ne_null hvalue hvariants
    · cases hconverted
      exact hvalue
  unfold toIdentities at h
  split at h
  · exact identities_ne_null hne h
  · cases h
    exact hne

end Operand

namespace Clause

variable {m : Model} {bindings : Bindings}

/-- The value a clause compares its field with. -/
def bound (m : Model) (bindings : Bindings) (c : Clause) : Except QueryError Json :=
  c.value.bindFor m bindings c.field

/-- A comparison that orders, or that takes candidates, is never bound to null. -/
theorem checkNull_eq_ok {c : Clause} {value : Json} (h : c.checkNull value = .ok ())
    (hop : c.operator.isRange = true ∨ c.operator.takesList = true) : value ≠ .null := by
  rintro rfl
  unfold checkNull at h
  rw [if_neg (by decide)] at h
  split at h
  next heq => rcases heq with heq | heq <;> simp [heq, FilterOp.isRange, FilterOp.takesList] at hop
  · exact nomatch h

/-- A clause that can be bound keeps its field and its comparison, and has a bound value. -/
theorem bind_eq_ok {c : Clause} {comparison : Comparison} (h : c.bind m bindings = .ok comparison) :
    c.bound m bindings = .ok comparison.value ∧ comparison.field = c.field ∧
      comparison.operator = c.operator ∧
      (c.operator.isRange = true ∨ c.operator.takesList = true → comparison.value ≠ .null) := by
  obtain ⟨value, hvalue, h⟩ := Except.bind_eq_ok.mp h
  obtain ⟨⟨⟩, hnull, h⟩ := Except.bind_eq_ok.mp h
  obtain ⟨⟨⟩, -, h⟩ := Except.bind_eq_ok.mp h
  obtain ⟨variant, hvariant, h⟩ := Except.bind_eq_ok.mp h
  obtain ⟨v, hv, h⟩ := Except.bind_eq_ok.mp h
  cases h
  have hconvert : c.value.toVariants m c.field value >>= c.value.toIdentities c.field = .ok v :=
    Except.bind_eq_ok.mpr ⟨variant, hvariant, hv⟩
  refine ⟨?_, rfl, rfl, fun hop => Operand.convert_ne_null (checkNull_eq_ok hnull hop) hconvert⟩
  rw [bound, Operand.bindFor, hvalue]
  exact hconvert

/-- Clauses that can be bound. -/
def Binds (m : Model) (bindings : Bindings) (c : Clause) : Prop :=
  ∃ comparison, c.bind m bindings = .ok comparison

/-- A clause can be bound if it has a value, which may be compared with its field and converted. These are all
ways in which it may be refused. -/
theorem binds_iff {c : Clause} :
    c.Binds m bindings ↔ ∃ value v, c.value.bind bindings = .ok value ∧
      c.checkNull value = .ok () ∧ c.checkList value = .ok () ∧ c.bound m bindings = .ok v := by
  constructor
  · rintro ⟨comparison, h⟩
    obtain ⟨value, hvalue, hrest⟩ := Except.bind_eq_ok.mp h
    obtain ⟨⟨⟩, hnull, hrest⟩ := Except.bind_eq_ok.mp hrest
    obtain ⟨⟨⟩, hlist, -⟩ := Except.bind_eq_ok.mp hrest
    exact ⟨value, comparison.value, hvalue, hnull, hlist, (bind_eq_ok h).1⟩
  · rintro ⟨value, v, hvalue, hnull, hlist, hbound⟩
    rw [bound, Operand.bindFor, hvalue] at hbound
    obtain ⟨variant, hvariant, hv⟩ := Except.bind_eq_ok.mp hbound
    refine ⟨⟨c.field, c.operator, v⟩, Except.bind_eq_ok.mpr ⟨value, hvalue, ?_⟩⟩
    exact Except.bind_eq_ok.mpr ⟨(), hnull, Except.bind_eq_ok.mpr ⟨(), hlist,
      Except.bind_eq_ok.mpr ⟨variant, hvariant, Except.bind_eq_ok.mpr ⟨v, hv, rfl⟩⟩⟩⟩

/-- An equality with a value that is not null can be bound if the value can be converted. -/
theorem equality_binds {c : Clause} (hop : c.operator = .equalTo) {value v : Json}
    (hvalue : c.value.bind bindings = .ok value) (hne : value ≠ .null)
    (hv : c.bound m bindings = .ok v) : c.Binds m bindings := by
  have hnull : c.checkNull value = .ok () := by
    unfold checkNull
    cases value <;> first | rfl | exact absurd rfl hne
  have hlist : c.checkList value = .ok () := by
    rw [checkList, hop]
    rfl
  exact binds_iff.mpr ⟨value, v, hvalue, hnull, hlist, hv⟩

end Clause

/-! ## Filters -/

namespace FieldRef

/-- Whether a comparison holds of the stored and the bound value; it does not where there is none. -/
def compares (m : Model) (bindings : Bindings) (d : Document) (field : FieldRef) (operand : Operand)
    (holds : Json → Json → Bool) : Bool :=
  match d.field? field.path, operand.bindFor m bindings field with
  | some stored, .ok value => holds stored value
  | _, _ => false

end FieldRef

namespace Clause

/-- Whether a clause holds of a document. -/
def holds (m : Model) (bindings : Bindings) (d : Document) (c : Clause) : Bool :=
  c.field.compares m bindings d c.value c.operator.holds

/-- Documents of which a comparison and its opposite do not both fail. The field is there, a null is not compared
with anything else, and what is ordered is of one kind. -/
structure Suits (m : Model) (bindings : Bindings) (d : Document) (c : Clause) : Prop where
  present : (d.field? c.field.path).isSome = true
  /-- A stored null is compared with null only. -/
  null : ∀ value, c.bound m bindings = .ok value → d.field? c.field.path = some .null → value = .null
  /-- Values that are ordered are of one kind. -/
  kind : c.operator.isRange = true → ∀ stored value, d.field? c.field.path = some stored →
    c.bound m bindings = .ok value → stored.rank = value.rank

end Clause

namespace Filter

mutual

/-- Whether a filter holds of a document. -/
def holds (m : Model) (bindings : Bindings) (d : Document) : Filter → Bool
  | .clause c => c.holds m bindings d
  | .or members => anyHolds m bindings d members
  | .and members => allHold m bindings d members

/-- Whether one of the filters holds of a document. -/
def anyHolds (m : Model) (bindings : Bindings) (d : Document) : List Filter → Bool
  | [] => false
  | f :: fs => holds m bindings d f || anyHolds m bindings d fs

/-- Whether all filters hold of a document. -/
def allHold (m : Model) (bindings : Bindings) (d : Document) : List Filter → Bool
  | [] => true
  | f :: fs => holds m bindings d f && allHold m bindings d fs

end

end Filter

/-- A value is null if it is the null value. -/
theorem Json.isNull_iff {value : Json} : value.isNull = true ↔ value = .null := by
  cases value <;> simp [Json.isNull]

/-- Whether a document suits a clause can be computed. -/
instance (m : Model) (bindings : Bindings) (d : Document) (c : Clause) :
    Decidable (c.Suits m bindings d) :=
  decidable_of_iff (∃ stored ∈ d.field? c.field.path, ∀ value ∈ (c.bound m bindings).toOption,
      (stored.isNull = true → value.isNull = true) ∧
        (c.operator.isRange = true → stored.rank = value.rank)) <| by
    constructor
    · rintro ⟨stored, hstored, h⟩
      have hstored : d.field? c.field.path = some stored := hstored
      refine ⟨Option.isSome_of_eq_some hstored, fun value hvalue hnull => ?_,
        fun hop stored' value hstored' hvalue => ?_⟩
      · cases hstored.symm.trans hnull
        exact Json.isNull_iff.mp ((h value (Except.mem_toOption.mpr hvalue)).1 rfl)
      · cases hstored.symm.trans hstored'
        exact (h value (Except.mem_toOption.mpr hvalue)).2 hop
    · intro h
      obtain ⟨stored, hstored⟩ := Option.isSome_iff_exists.mp h.present
      refine ⟨stored, hstored, fun value hvalue => ?_⟩
      have hbound : c.bound m bindings = .ok value := Except.mem_toOption.mp hvalue
      refine ⟨fun hnull => ?_, fun hop => h.kind hop stored value hstored hbound⟩
      have hnull : stored = .null := Json.isNull_iff.mp hnull
      exact Json.isNull_iff.mpr (h.null value hbound (hnull ▸ hstored))

/-! ## Predicates -/

/-- An atomic test of a predicate. The side on which the field stands is kept, although the comparison can be
turned around: the two readings are shown to agree, and not assumed to. -/
inductive Test where
  /-- The field stands on the left of the comparison, or is tested for membership. -/
  | compare (field : FieldRef) (operator : FilterOp) (operand : Operand)
  /-- The field stands on the right of the comparison. -/
  | reversed (field : FieldRef) (operator : FilterOp) (operand : Operand)
  /-- A boolean member on its own. -/
  | flag (field : FieldRef)

namespace Test

/-- The clause that says the same as a test. -/
def clause : Test → Clause
  | .compare field operator operand => ⟨field, operator, operand⟩
  | .reversed field operator operand => ⟨field, operator.swapped, operand⟩
  | .flag field => ⟨field, .equalTo, .constant (.bool true)⟩

/-- Whether a test holds of a document. -/
def holds (m : Model) (bindings : Bindings) (d : Document) : Test → Bool
  | .compare field operator operand => field.compares m bindings d operand operator.holds
  | .reversed field operator operand => field.compares m bindings d operand operator.holdsReversed
  | .flag field =>
    match d.field? field.path with
    | some (.bool value) => value
    | _ => false

/-- Documents of which a test either holds or does not. -/
structure Suits (m : Model) (bindings : Bindings) (d : Document) (t : Test) : Prop where
  clause : t.clause.Suits m bindings d
  /-- A boolean member is a boolean. -/
  flag : ∀ field, t = .flag field → ∃ value, d.field? field.path = some (.bool value)

/-- Whether a boolean member is a boolean. -/
def flagged (d : Document) : Test → Bool
  | .flag field =>
    match d.field? field.path with
    | some (.bool _) => true
    | _ => false
  | _ => true

instance (m : Model) (bindings : Bindings) (d : Document) (t : Test) :
    Decidable (t.Suits m bindings d) :=
  decidable_of_iff (t.clause.Suits m bindings d ∧ t.flagged d = true) <| by
    constructor
    · rintro ⟨hclause, hflag⟩
      refine ⟨hclause, ?_⟩
      rintro field rfl
      unfold flagged at hflag
      dsimp only at hflag
      split at hflag
      next value hstored => exact ⟨value, hstored⟩
      · cases hflag
    · intro h
      refine ⟨h.clause, ?_⟩
      cases t with
      | compare | reversed => rfl
      | flag field =>
        obtain ⟨value, hstored⟩ := h.flag field rfl
        simp only [flagged, hstored]

/-- The test of a comparison. -/
def ofComparison? (m : Model) (scope : Scope) (op : FilterOp) (left right : Expr) : Option Test :=
  match left.isField scope.parameter, right.isField scope.parameter with
  | true, false => do
    let field ← (FieldRef.ofExpr m scope left).toOption
    let operand ← (Operand.ofExpr right).toOption
    return .compare field op operand
  | false, true => do
    let field ← (FieldRef.ofExpr m scope right).toOption
    let operand ← (Operand.ofExpr left).toOption
    return .reversed field op operand
  | _, _ => none

/-- The test whether a collection contains an item: a stored collection an operand, or the candidates a
stored value. -/
def ofContains? (m : Model) (scope : Scope) (source item : Expr) : Option Test :=
  if source.isField scope.parameter then do
    let field ← (FieldRef.ofExpr m scope source).toOption
    let operand ← (Operand.ofExpr item).toOption
    return .compare field .arrayContains operand
  else do
    let field ← (FieldRef.ofExpr m scope item).toOption
    let operand ← (Operand.ofList source).toOption
    return .compare field .isIn operand

/-- The test whether a stored collection has an item among candidates. -/
def ofAny? (m : Model) (scope : Scope) (source : Expr) (parameter : String) (body : Expr) :
    Option Test := do
  let field ← (FieldRef.ofExpr m scope source).toOption
  let list ← Filter.candidates? parameter body.unwrap
  let operand ← (Operand.ofList list).toOption
  return .compare field .arrayContainsAny operand

/-- The test an atomic expression stands for. -/
def ofExpr? (m : Model) (scope : Scope) : Expr → Option Test
  | .binary op left right => op.comparison?.bind fun op => ofComparison? m scope op left right
  | .call .equals (some left) [right] => ofComparison? m scope .equalTo left right
  | .call .equals none [left, right] => ofComparison? m scope .equalTo left right
  | .call .contains (some source) [item] => ofContains? m scope source item
  | .call .contains none [source, item] => ofContains? m scope source item
  | .call .any (some source) [.lambda parameter body] => ofAny? m scope source parameter body
  | .call .any none [source, .lambda parameter body] => ofAny? m scope source parameter body
  | .member target name => (FieldRef.ofExpr m scope (.member target name)).toOption.map .flag
  | _ => none

end Test

namespace Expr

/-- The value of a boolean expression, given the values of its atomic parts. A conversion is looked through, as
it is when predicates are compiled. -/
def eval (atom : Expr → Bool) : Expr → Bool
  | .convert operand => operand.eval atom
  | .not operand => !operand.eval atom
  | .binary .andAlso left right => left.eval atom && right.eval atom
  | .binary .orElse left right => left.eval atom || right.eval atom
  | e => atom e

/-- The atomic parts of a boolean expression. -/
def atoms : Expr → List Expr
  | .convert operand => operand.atoms
  | .not operand => operand.atoms
  | .binary .andAlso left right => left.atoms ++ right.atoms
  | .binary .orElse left right => left.atoms ++ right.atoms
  | e => [e]

/-- Whether an atomic expression holds of a document. -/
def atomHolds (m : Model) (bindings : Bindings) (scope : Scope) (d : Document) (e : Expr) : Bool :=
  (Test.ofExpr? m scope e).any (·.holds m bindings d)

/-- Whether a boolean expression holds of a document. -/
def holds (m : Model) (bindings : Bindings) (scope : Scope) (d : Document) (e : Expr) : Bool :=
  e.eval (atomHolds m bindings scope d)

/-- Documents of which every test in an expression either holds or does not. -/
def Suits (m : Model) (bindings : Bindings) (scope : Scope) (d : Document) (e : Expr) : Prop :=
  ∀ atom ∈ e.atoms, ∀ t, Test.ofExpr? m scope atom = some t → t.Suits m bindings d

instance (m : Model) (bindings : Bindings) (scope : Scope) (d : Document) (e : Expr) :
    Decidable (e.Suits m bindings scope d) :=
  inferInstanceAs
    (Decidable (∀ atom ∈ e.atoms, ∀ t ∈ Test.ofExpr? m scope atom, t.Suits m bindings d))

end Expr

end DocumentQuery
