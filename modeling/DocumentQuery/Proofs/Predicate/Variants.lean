import DocumentQuery.Proofs.Predicate.Binding
import Mathlib.Data.List.Nodup

/-!
# Comparing fields of enum variants

A document stores the name of a variant, and a predicate compares with its number. Binding replaces the
number by the name of its variant, so the store compares two names.

For equality this is the comparison of the numbers, because names and numbers are distinct. A comparison
that orders agrees with that of the numbers exactly if the two names are in the order of the two numbers
(`FilterOp.relates_iff`); the store cannot do better, since it knows nothing of the numbers.

The reading of a document is not part of it: the field is given with a stored name, and the name is that of a
variant. A field that stores something else is equal to no variant and precedes none.

## Main definitions

* `FilterOp.relates` — whether a comparison holds between two things in a given order
* `EnumDecl.Distinct` — enums whose variants differ in name and in number

## Main results

* `Filter.ofLambda_variant_accepts` — what a comparison of a field of variants with a number means
-/

namespace DocumentQuery

variable {m : Model} {bindings : Bindings} {d : Document}

/-! ## Comparisons of things in a given order -/

namespace FilterOp

/-- Whether a comparison holds between two things in a given order. The comparisons with collections hold
of none. -/
def relates (op : FilterOp) (order : Ordering) : Bool :=
  match op with
  | .equalTo => order == .eq
  | .notEqualTo => order != .eq
  | .lessThan => order == .lt
  | .lessThanOrEqualTo => order != .gt
  | .greaterThan => order == .gt
  | .greaterThanOrEqualTo => order != .lt
  | .arrayContains | .isIn | .arrayContainsAny | .notIn => false

/-- The store compares two strings by their order. -/
theorem holds_str {binary : BinaryOp} {op : FilterOp} (hop : binary.comparison? = some op) (a b : String) :
    op.holds (.str a) (.str b) = op.relates (compare a b) := by
  have hequates : (Json.str a).equates (.str b) = (compare a b == .eq) := by
    show (a == b) = _
    rw [Bool.eq_iff_iff, beq_iff_eq, beq_iff_eq, compare_eq_iff_eq]
  cases binary <;> cases hop <;>
    simp [holds, relates, hequates, Json.isNull, Json.comparable, Json.rank, Json.order, bne]

/-- Two pairs that are equal or both not are related alike by every comparison that does not order, and by
one that orders only if they are in the same order. -/
theorem relates_iff {binary : BinaryOp} {op : FilterOp} (hop : binary.comparison? = some op)
    {names numbers : Ordering} (heq : names = .eq ↔ numbers = .eq) :
    op.relates names = op.relates numbers ↔ op.isRange = false ∨ names = numbers := by
  cases binary <;> cases hop <;> cases names <;> cases numbers <;> simp [relates, isRange] at heq ⊢ <;> rfl

end FilterOp

/-! ## Variants and their numbers -/

namespace EnumDecl

/-- Enums whose variants differ in name and in number. Either would be enough to tell variants apart; both are
needed to go from numbers to names and back. -/
structure Distinct (e : EnumDecl) : Prop where
  /-- No two variants have one name. -/
  names : (e.variants.map (·.name)).Nodup
  /-- No two variants have one number. -/
  values : (e.variants.map (·.value)).Nodup

namespace Distinct

variable {e : EnumDecl} {v w : EnumVariant}

/-- A number is looked up as the variant it numbers. -/
theorem nameOf?_value (h : e.Distinct) (hw : w ∈ e.variants) : e.nameOf? w.value = some w.name := by
  cases hfind : e.variants.find? (·.value == w.value) with
  | none =>
    have hne := List.find?_eq_none.mp hfind w hw
    exact absurd (beq_self_eq_true w.value) hne
  | some found =>
    have hvalue : found.value = w.value := by simpa using List.find?_some hfind
    have hsame := List.inj_on_of_nodup_map h.values (List.mem_of_find?_eq_some hfind) hw hvalue
    rw [nameOf?, hfind, hsame]
    rfl

/-- Two variants have the same name exactly if they have the same number. -/
theorem compare_eq_iff (h : e.Distinct) (hv : v ∈ e.variants) (hw : w ∈ e.variants) :
    compare v.name w.name = .eq ↔ compare v.value w.value = .eq := by
  rw [compare_eq_iff_eq, compare_eq_iff_eq]
  constructor
  · intro hname
    rw [List.inj_on_of_nodup_map h.names hv hw hname]
  · intro hvalue
    rw [List.inj_on_of_nodup_map h.values hv hw hvalue]

end Distinct

end EnumDecl

/-! ## From the number to the name -/

/-- What stands for an operand is no field. -/
theorem Expr.isField_of_operand {parameter : String} {operand : Operand} :
    (e : Expr) → Operand.ofExpr e = .ok operand → e.isField parameter = false
  | .convert e => fun h => isField_of_operand e h
  | .constant _ => fun _ => rfl
  | .variable _ => fun _ => rfl
  | .member _ _ => fun h => nomatch h
  | .param _ => fun _ => rfl
  | .binary _ _ _ => fun _ => rfl
  | .not _ => fun _ => rfl
  | .call _ _ _ => fun _ => rfl
  | .lambda _ _ => fun _ => rfl
  | .construct _ _ => fun _ => rfl

/-- A number that is compared with a field of variants is bound to the name of its variant. -/
theorem Clause.bind_variant {c : Clause} {enumName : String} {enum : EnumDecl} {w : EnumVariant}
    (henumName : c.field.enumName = some enumName) (henum : m.enumNamed enumName = .ok enum)
    (hdistinct : enum.Distinct) (hw : w ∈ enum.variants) (hsigned : w.value < Number.signedBound)
    (hvalue : c.value.bind bindings = .ok (.int w.value)) (hlist : c.operator.takesList = false) :
    c.bind m bindings = .ok ⟨c.field, c.operator, .str w.name⟩ := by
  have hnumber : (Json.int w.value).toSigned? = some w.value := if_pos hsigned
  have hvariants : c.value.variants enum enumName (.int w.value) = .ok (.str w.name) := by
    show c.value.variant enum enumName (.int w.value) = _
    simp only [Operand.variant, hnumber, hdistinct.nameOf?_value hw]
  have hvariant : c.value.toVariants m c.field (.int w.value) = .ok (.str w.name) := by
    rw [Operand.toVariants, henumName]
    exact Except.bind_eq_ok.mpr ⟨enum, henum, hvariants⟩
  -- a name stays as it is, whether or not the field is the identity
  have hidentity : c.value.toIdentities c.field (.str w.name) = .ok (.str w.name) := by
    unfold Operand.toIdentities
    split <;> rfl
  have hnolist : c.checkList (.int w.value) = .ok () := by
    rw [Clause.checkList, hlist]
    rfl
  exact Except.bind_eq_ok.mpr ⟨_, hvalue, Except.bind_eq_ok.mpr ⟨(), rfl,
    Except.bind_eq_ok.mpr ⟨(), hnolist, Except.bind_eq_ok.mpr ⟨_, hvariant,
      Except.bind_eq_ok.mpr ⟨_, hidentity, rfl⟩⟩⟩⟩⟩

theorem BinaryOp.takesList_comparison? {binary : BinaryOp} {op : FilterOp}
    (hop : binary.comparison? = some op) : op.takesList = false := by
  cases binary <;> cases hop <;> rfl

/-! ## Predicates -/

namespace Filter

open StoreFilter (accepts allAccept)

/-- A comparison of a field with an operand is compiled to its clause. -/
theorem ofExpr_comparison {type : TypeDecl} {parameter : String} {binary : BinaryOp} {op : FilterOp}
    {left right : Expr} {field : FieldRef} {operand : Operand} (hop : binary.comparison? = some op)
    (hleft : left.isField parameter = true)
    (hfield : FieldRef.ofExpr m ⟨parameter, type⟩ left = .ok field)
    (hsingle : field.declared.isCollection = false) (hoperand : Operand.ofExpr right = .ok operand) :
    ofExpr m ⟨parameter, type⟩ false (.binary binary left right) = .ok (.clause ⟨field, op, operand⟩) := by
  have hcomparison : ofComparison m ⟨parameter, type⟩ op left right =
      .ok (.clause ⟨field, op, operand⟩) := by
    rw [ofComparison, hleft, Expr.isField_of_operand right hoperand, hfield, hoperand]
    show (if field.declared.isCollection = true then _ else _) = _
    rw [hsingle]
    rfl
  rw [ofExpr, hop]
  exact Except.bind_eq_ok.mpr ⟨_, hcomparison, rfl⟩

/-- A predicate has the conjuncts of its expression. -/
theorem ofLambda_eq_ok {typeName parameter : String} {type : TypeDecl} {body : Expr} {f : Filter}
    (htype : m.typeNamed typeName = .ok type) (hbody : ofExpr m ⟨parameter, type⟩ false body = .ok f) :
    ofLambda m typeName ⟨parameter, body⟩ = .ok f.conjuncts := by
  have hscope : Lambda.scope ⟨parameter, body⟩ m typeName = .ok ⟨parameter, type⟩ := by
    rw [Lambda.scope, htype]
    rfl
  exact Except.bind_eq_ok.mpr ⟨_, hscope, Except.bind_eq_ok.mpr ⟨_, hbody, rfl⟩⟩

/-- A field of variants that is compared with the number of a variant is compared with its name: the clause
holds of a document with the name of a variant exactly if the two names are so related. The two numbers are
related alike, if the comparison does not order or the names are in the order of the numbers, and only then.

The comparison may be any of the six, and the operand a constant or a parameter that is bound to the number.
That the enum is distinct is what carries the equality half. -/
theorem ofLambda_variant_accepts {typeName : String} {type : TypeDecl} {parameter : String}
    {binary : BinaryOp} {op : FilterOp} {left right : Expr} {field : FieldRef} {operand : Operand}
    {enumName : String} {enum : EnumDecl} {v w : EnumVariant}
    (htype : m.typeNamed typeName = .ok type) (hop : binary.comparison? = some op)
    (hleft : left.isField parameter = true)
    (hfield : FieldRef.ofExpr m ⟨parameter, type⟩ left = .ok field)
    (hsingle : field.declared.isCollection = false) (henumName : field.enumName = some enumName)
    (henum : m.enumNamed enumName = .ok enum) (hdistinct : enum.Distinct) (hv : v ∈ enum.variants)
    (hw : w ∈ enum.variants) (hsigned : w.value < Number.signedBound)
    (hoperand : Operand.ofExpr right = .ok operand)
    (hvalue : operand.bind bindings = .ok (.int w.value))
    (hstored : d.field? field.path = some (.str v.name)) :
    ∃ conditions, (ofLambda m typeName ⟨parameter, .binary binary left right⟩ >>=
        bindAll m bindings) = .ok conditions ∧
      allAccept d (Condition.toFilters conditions) = op.relates (compare v.name w.name) ∧
      (allAccept d (Condition.toFilters conditions) = op.relates (compare v.value w.value) ↔
        op.isRange = false ∨ compare v.name w.name = compare v.value w.value) := by
  have hclause : Clause.bind m bindings ⟨field, op, operand⟩ = .ok ⟨field, op, .str w.name⟩ :=
    Clause.bind_variant henumName henum hdistinct hw hsigned hvalue
      (BinaryOp.takesList_comparison? hop)
  -- the number is bound as the name of the variant, so that names are what is compared
  have hbind : bindAll m bindings [.clause ⟨field, op, operand⟩] =
      .ok [.compare ⟨field, op, .str w.name⟩] := by
    have hfilter : bind m bindings (.clause ⟨field, op, operand⟩) =
        .ok (.compare ⟨field, op, .str w.name⟩) :=
      Except.bind_eq_ok.mpr ⟨_, hclause, rfl⟩
    rw [bindAll, bindEach, hfilter]
    rfl
  have haccepts : allAccept d (Condition.toFilters [.compare ⟨field, op, .str w.name⟩]) =
      op.relates (compare v.name w.name) := by
    simp only [Condition.toFilters, Condition.toFilter, Comparison.toFilter, allAccept, accepts,
      hstored, Bool.and_true]
    exact FilterOp.holds_str hop v.name w.name
  have hlambda := ofLambda_eq_ok htype (ofExpr_comparison hop hleft hfield hsingle hoperand)
  refine ⟨_, Except.bind_eq_ok.mpr ⟨_, hlambda, hbind⟩, haccepts, ?_⟩
  rw [haccepts]
  exact FilterOp.relates_iff hop (hdistinct.compare_eq_iff hv hw)

/-- Levels, of which the lower one has the later name. -/
def levels : EnumDecl :=
  ⟨"Level", [⟨"Low", 0⟩, ⟨"High", 1⟩]⟩

/-- Items with a level. -/
def levelItem : TypeDecl :=
  ⟨"Item", .entity "items" "Id",
    [.named "Id" (.scalar .string), (Property.named "Level" (.scalar (.enum "Level"))).inField "level"],
    [], []⟩

/-- The model of items with a level. -/
def levelModel : Model :=
  (Model.empty.withEnum levels).withType levelItem

/-- The level of an item. -/
def levelField : FieldRef :=
  ⟨"level", "Level", .scalar (.enum "Level"), false, some "Level"⟩

/-- A stored item of the lower level. -/
def lowItem : Document :=
  ⟨"items/a", .obj [("level", .str "Low")]⟩

/-- An item of the lower level is found among those of another level than a parameter, which is 1. -/
theorem ofLambda_variant_accepts_lowItem :
    ∃ conditions, (ofLambda levelModel "Item"
          ⟨"i", .binary .notEqual (.member (.param "i") "Level") (.convert (.variable "level"))⟩ >>=
        bindAll levelModel [("level", .int 1)]) = .ok conditions ∧
      allAccept lowItem (Condition.toFilters conditions) = true := by
  have htype : levelModel.typeNamed "Item" = .ok levelItem := rfl
  have hop : BinaryOp.notEqual.comparison? = some .notEqualTo := rfl
  have hfield : FieldRef.ofExpr levelModel ⟨"i", levelItem⟩ (.member (.param "i") "Level") =
      .ok levelField := rfl
  have hstored : lowItem.field? levelField.path = some (.str "Low") := rfl
  have hlow : ⟨"Low", 0⟩ ∈ levels.variants := by decide
  have hhigh : ⟨"High", 1⟩ ∈ levels.variants := by decide
  have hoperand : Operand.ofExpr (.convert (.variable "level")) = .ok (.parameter "level") := rfl
  have hvalue : (Operand.parameter "level").bind [("level", .int 1)] = .ok (.int 1) := rfl
  obtain ⟨conditions, hbind, haccepts, -⟩ := ofLambda_variant_accepts htype hop rfl hfield rfl rfl rfl
    ⟨by decide, by decide⟩ hlow hhigh (by decide) hoperand hvalue hstored
  exact ⟨conditions, hbind, haccepts.trans (by decide)⟩

/-- Items of a level below the one that is numbered 1. -/
def belowHigh : Lambda :=
  ⟨"i", .binary .lessThan (.member (.param "i") "Level") (.constant (.int 1))⟩

/-- An item of the level 0 is not found among those of a level below 1, since the name of its level comes
after the name of the other. -/
theorem belowHigh_rejects_lowItem :
    (levels.Distinct ∧ levels.valueOf? "Low" = some 0 ∧ levels.valueOf? "High" = some 1) ∧
      (ofLambda levelModel "Item" belowHigh >>= bindAll levelModel []) =
        .ok [.compare ⟨levelField, .lessThan, .str "High"⟩] ∧
      lowItem.field? levelField.path = some (.str "Low") ∧
      allAccept lowItem (Condition.toFilters [.compare ⟨levelField, .lessThan, .str "High"⟩]) = false ∧
      FilterOp.lessThan.relates (compare (0 : Int) 1) = true :=
  ⟨⟨⟨by decide, by decide⟩, rfl, rfl⟩, rfl, rfl, by decide, rfl⟩

end Filter

end DocumentQuery
