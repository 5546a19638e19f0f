import DocumentQuery.Proofs.Lists
import DocumentQuery.Proofs.Predicate.Filtering
import DocumentQuery.Proofs.Predicate.Variants

/-!
# Membership as equalities

A field is among values if it is equal to one of them. A predicate may say so with a list of candidates
(`Expr.Membership`) or with a disjunction of equalities (`Expr.Equalities`), and the two are compiled and bound
in different ways: the list is one clause whose candidates are converted one by one, the disjunction is a tree
of clauses, and an equality that stands alone may become a lookup. They are still accepted together and for the
same documents (`Lambda.query_membership`), with one exception. A comparison with null is refused unless the
field persists null, and this is checked of a single value only. So null among the candidates is let through
where the equality with null is refused. `FieldRef.NullsAlike` says exactly when this makes no difference.

## Main definitions

* `Expr.Membership`, `Expr.Equalities` — the two ways to write the predicate
* `FieldRef.NullsAlike` — fields for which null is treated alike in both
-/

namespace DocumentQuery

variable {m : Model} {bindings : Bindings} {d : Document} {field : FieldRef}

/-! ## Converting candidates -/

namespace Operand

/-- A single value that is compared with a field; for a field of enum variants, a number becomes its
variant. -/
def toVariant (m : Model) (field : FieldRef) (operand : Operand) (value : Json) :
    Except QueryError Json :=
  match field.enumName with
  | some name => do
    let enum ← m.enumNamed name
    operand.variant enum name value
  | none => .ok value

/-- A single value that is compared with a field; for the identity, a number becomes its text. -/
def toIdentity (field : FieldRef) (operand : Operand) (value : Json) : Except QueryError Json :=
  if field.isDocumentId then (operand.identity value).map Json.str else .ok value

/-- A candidate as it is compared with a field. -/
def candidate (m : Model) (field : FieldRef) (operand : Operand) (value : Json) :
    Except QueryError Json :=
  operand.toVariant m field value >>= operand.toIdentity field

/-- A single value is converted to a variant by itself. -/
theorem toVariants_of_single {operand : Operand} {value : Json} (hsingle : value.isArray = false) :
    operand.toVariants m field value = operand.toVariant m field value := by
  unfold toVariants toVariant
  cases value <;> first | rfl | exact nomatch hsingle

/-- A value is its own variant, unless it is the number of one. -/
theorem eq_or_num_of_toVariant {operand : Operand} {value v : Json}
    (h : operand.toVariant m field value = .ok v) :
    v = value ∨ ∃ name n, v = .str name ∧ value = .num n := by
  unfold toVariant at h
  split at h
  · obtain ⟨enum, -, h⟩ := Except.bind_eq_ok.mp h
    unfold variant at h
    split at h
    · cases h
      exact .inl rfl
    next n hn =>
      split at h
      next name _ =>
        cases h
        cases value with
        | num number => exact .inr ⟨name, number, rfl, rfl⟩
        | _ => cases hn
      · cases h
  · cases h
    exact .inl rfl

/-- The variant of a single value is a single value, and null is the variant of null only. -/
theorem single_of_toVariant {operand : Operand} {value v : Json} (hsingle : value.isArray = false)
    (h : operand.toVariant m field value = .ok v) : v.isArray = false ∧ (v = .null ↔ value = .null) := by
  rcases eq_or_num_of_toVariant h with rfl | ⟨name, n, rfl, rfl⟩
  · exact ⟨hsingle, Iff.rfl⟩
  · exact ⟨rfl, by simp⟩

/-- A single value is converted to an identity by itself, unless it is null. -/
theorem toIdentities_of_single {operand : Operand} {value : Json} (hsingle : value.isArray = false)
    (hnull : value = .null → field.isDocumentId = false) :
    operand.toIdentities field value = operand.toIdentity field value := by
  unfold toIdentities toIdentity
  cases hid : field.isDocumentId with
  | false => rfl
  | true =>
    have hne : value ≠ .null := fun h => by simp [hnull h] at hid
    exact identities_of_single hsingle hne

/-- A value is converted as a candidate is, unless it is null and compared with the identity. -/
theorem bindFor_of_single {value : Json} (hsingle : value.isArray = false)
    (hnull : value = .null → field.isDocumentId = false) :
    (constant value).bindFor m bindings field = (constant value).candidate m field value := by
  show (constant value).toVariants m field value >>= _ = _
  rw [toVariants_of_single hsingle, candidate]
  cases h : (constant value).toVariant m field value with
  | error e => rfl
  | ok v =>
    obtain ⟨hv, hvnull⟩ := single_of_toVariant hsingle h
    exact toIdentities_of_single hv fun hn => hnull (hvnull.mp hn)

/-- A candidate is converted as on its own, except that null is no candidate for the identity. The list it
comes from matters for the words of a refusal only. -/
theorem candidate_eq_ok_iff {list value w : Json} (hsingle : value.isArray = false) :
    (constant list).candidate m field value = .ok w ↔
      (constant value).bindFor m bindings field = .ok w ∧ (value = .null → field.isDocumentId = false) := by
  have hconstant : (constant list).candidate m field value = (constant value).candidate m field value :=
    rfl
  rw [hconstant]
  constructor
  · intro h
    have hnull : value = .null → field.isDocumentId = false := by
      rintro rfl
      obtain ⟨v, hv, h⟩ := Except.bind_eq_ok.mp h
      obtain rfl : v = .null := (single_of_toVariant rfl hv).2.mpr rfl
      unfold toIdentity at h
      split at h
      · exact nomatch h
      next hid => exact Bool.eq_false_iff.mpr hid
    exact ⟨(bindFor_of_single hsingle hnull).trans h, hnull⟩
  · rintro ⟨h, hnull⟩
    exact (bindFor_of_single hsingle hnull).symm.trans h

/-- A list is converted to variants one item after the other. -/
theorem toVariants_arr {operand : Operand} {values : List Json} (hne : values ≠ []) {v : Json} :
    operand.toVariants m field (.arr values) = .ok v ↔
      ∃ ws, values.mapM (operand.toVariant m field) = .ok ws ∧ .arr ws = v := by
  cases hname : field.enumName with
  | none =>
    have hone : operand.toVariant m field = Except.ok := by
      funext value
      rw [toVariant, hname]
    rw [toVariants, hname, hone, Except.mapM_ok]
    simp
  | some name =>
    have hone (value : Json) : operand.toVariant m field value =
        m.enumNamed name >>= fun enum => operand.variant enum name value := by
      rw [toVariant, hname]
    rw [toVariants, hname]
    show (m.enumNamed name >>= fun enum => operand.variants enum name (.arr values)) = .ok v ↔ _
    cases henum : m.enumNamed name with
    | error e =>
      -- an unknown enum is noticed at the first item
      obtain ⟨value, rest, rfl⟩ := List.exists_cons_of_ne_nil hne
      rw [List.mapM_cons, hone, henum]
      constructor
      · intro h
        cases h
      · rintro ⟨_, h, -⟩
        cases h
    | ok enum =>
      have hall : operand.toVariant m field = operand.variant enum name := by
        funext value
        rw [hone, henum]
        rfl
      rw [hall]
      exact Except.map_eq_ok

/-- A list is converted to identities one item after the other. -/
theorem toIdentities_arr {operand : Operand} {values : List Json} {v : Json} :
    operand.toIdentities field (.arr values) = .ok v ↔
      ∃ ws, values.mapM (operand.toIdentity field) = .ok ws ∧ .arr ws = v := by
  cases hid : field.isDocumentId with
  | false =>
    have hone : operand.toIdentity field = Except.ok := by
      funext value
      rw [toIdentity, hid]
      rfl
    rw [toIdentities, hid, hone, Except.mapM_ok]
    simp
  | true =>
    have hone : operand.toIdentity field = fun value =>
        operand.identity value >>= fun id => .ok (.str id) := by
      funext value
      rw [toIdentity, hid, if_pos rfl]
      cases operand.identity value <;> rfl
    have htexts (ids : List String) :
        ids.mapM (fun id => Except.ok (ε := QueryError) (Json.str id)) = .ok (ids.map Json.str) :=
      Except.mapM_eq_ok fun _ _ => rfl
    rw [toIdentities, if_pos hid, hone, identities, Except.bind_eq_ok]
    simp only [← Except.mapM_mapM_eq_ok, htexts]
    constructor
    · rintro ⟨ids, hids, h⟩
      exact ⟨_, ⟨ids, hids, rfl⟩, Except.ok.inj h⟩
    · rintro ⟨_, ⟨ids, hids, ⟨⟩⟩, rfl⟩
      exact ⟨ids, hids, rfl⟩

/-- A list is converted one candidate after the other. -/
theorem bindFor_arr {values : List Json} (hne : values ≠ []) {v : Json} :
    (constant (.arr values)).bindFor m bindings field = .ok v ↔
      ∃ ws, values.mapM ((constant (.arr values)).candidate m field) = .ok ws ∧ .arr ws = v := by
  have hcandidate : (constant (.arr values)).candidate m field = fun value =>
      (constant (.arr values)).toVariant m field value >>= (constant (.arr values)).toIdentity field := rfl
  show (constant (.arr values)).toVariants m field (.arr values) >>= _ = _ ↔ _
  simp only [Except.bind_eq_ok, toVariants_arr hne, hcandidate, ← Except.mapM_mapM_eq_ok]
  constructor
  · rintro ⟨_, ⟨vs, hvs, rfl⟩, h⟩
    obtain ⟨ws, hws, rfl⟩ := toIdentities_arr.mp h
    exact ⟨ws, ⟨vs, hvs, hws⟩, rfl⟩
  · rintro ⟨ws, ⟨vs, hvs, hws⟩, rfl⟩
    exact ⟨_, ⟨vs, hvs, rfl⟩, toIdentities_arr.mpr ⟨ws, hws, rfl⟩⟩

end Operand

/-! ## The clauses -/

namespace FieldRef

/-- The clause that a field is equal to a value. -/
def equality (field : FieldRef) (value : Json) : Clause :=
  ⟨field, .equalTo, .constant value⟩

/-- The clause that a field is among values. -/
def membership (field : FieldRef) (values : List Json) : Clause :=
  ⟨field, .isIn, .constant (.arr values)⟩

/-- Fields for which null is treated alike as a candidate in a list and on its own. As the identity, null is
refused in a list, and also where it is looked up. Any other field has to persist nulls. -/
def NullsAlike (field : FieldRef) (values : List Json) : Prop :=
  if field.isDocumentId then field.persistsNull = false ∨ values = [.null] else field.persistsNull = true

/-- An equality can be bound if the value can be converted, and null only if the field persists nulls. -/
theorem equality_binds_iff {value : Json} : (field.equality value).Binds m bindings ↔
    (∃ w, (Operand.constant value).bindFor m bindings field = .ok w) ∧
      (value = .null → field.persistsNull = true) := by
  rw [Clause.binds_iff]
  constructor
  · rintro ⟨_, w, ⟨⟩, hnull, -, hbound⟩
    refine ⟨⟨w, hbound⟩, ?_⟩
    rintro rfl
    by_contra hpersists
    simp [Clause.checkNull, equality, Json.isNull, hpersists] at hnull
  · rintro ⟨⟨w, hw⟩, hnull⟩
    have hcheck : (field.equality value).checkNull value = .ok () := by
      cases value with
      | null => simp [Clause.checkNull, equality, hnull rfl]
      | _ => rfl
    exact ⟨value, w, rfl, hcheck, rfl, hw⟩

variable {values : List Json}

/-- A field is compared with candidates if each of them can be converted on its own; null is no identity. -/
theorem membership_binds_iff (hne : values ≠ []) (hsingle : ∀ v ∈ values, v.isArray = false) :
    (field.membership values).Binds m bindings ↔
      (∀ v ∈ values, ∃ w, (Operand.constant v).bindFor m bindings field = .ok w) ∧
        (.null ∈ values → field.isDocumentId = false) := by
  rw [Clause.binds_iff]
  constructor
  · rintro ⟨_, _, ⟨⟩, -, -, hbound⟩
    obtain ⟨ws, hws, -⟩ := (Operand.bindFor_arr hne).mp hbound
    have hall (v : Json) (hv : v ∈ values) :
        ∃ w, (Operand.constant v).bindFor m bindings field = .ok w ∧
          (v = .null → field.isDocumentId = false) := by
      obtain ⟨w, hw⟩ := Except.exists_mapM_eq_ok.mp ⟨ws, hws⟩ v hv
      exact ⟨w, (Operand.candidate_eq_ok_iff (hsingle v hv)).mp hw⟩
    refine ⟨fun v hv => ?_, fun hmem => ?_⟩
    · obtain ⟨w, hw, -⟩ := hall v hv
      exact ⟨w, hw⟩
    · obtain ⟨-, -, hnull⟩ := hall .null hmem
      exact hnull rfl
  · rintro ⟨hall, hnull⟩
    have hcandidates : ∀ v ∈ values, ∃ w,
        (Operand.constant (.arr values)).candidate m field v = .ok w := by
      intro v hv
      obtain ⟨w, hw⟩ := hall v hv
      exact ⟨w, (Operand.candidate_eq_ok_iff (hsingle v hv)).mpr ⟨hw, fun h => hnull (h ▸ hv)⟩⟩
    obtain ⟨ws, hws⟩ := Except.exists_mapM_eq_ok.mpr hcandidates
    exact ⟨_, _, rfl, rfl, rfl, (Operand.bindFor_arr hne).mpr ⟨ws, hws, rfl⟩⟩

/-- A clause with a bound value compares the stored value with it. -/
theorem compares_eq_any {operand : Operand} {holds : Json → Json → Bool} {value : Json}
    (h : operand.bindFor m bindings field = .ok value) :
    field.compares m bindings d operand holds = (d.field? field.path).any (holds · value) := by
  rw [compares, h]
  cases d.field? field.path <;> rfl

/-- A field is among candidates exactly if it is equal to one of them. -/
theorem membership_holds (hne : values ≠ []) (hsingle : ∀ v ∈ values, v.isArray = false)
    (hbinds : (field.membership values).Binds m bindings) :
    (field.membership values).holds m bindings d =
      values.any fun v => (field.equality v).holds m bindings d := by
  obtain ⟨_, _, ⟨⟩, -, -, hbound⟩ := Clause.binds_iff.mp hbinds
  obtain ⟨ws, hws, rfl⟩ := (Operand.bindFor_arr hne).mp hbound
  have hitems : (values.map fun v => (field.equality v).holds m bindings d) =
      ws.map fun w => (d.field? field.path).any (·.equates w) := by
    refine map_eq_map_of_forall₂ (Except.mapM_eq_ok_iff.mp hws) fun v hv w _ hw => ?_
    exact compares_eq_any ((Operand.candidate_eq_ok_iff (hsingle v hv)).mp hw).1
  have hany := congrArg (List.any · id) hitems
  simp only [List.any_map, Function.id_comp] at hany
  refine (compares_eq_any hbound).trans (Eq.trans ?_ hany.symm)
  show (d.field? field.path).any (fun stored => ws.any stored.equates) = _
  cases d.field? field.path with
  | none => simp
  | some stored => rfl

end FieldRef

/-! ## The two ways to write it -/

namespace Expr

/-- The predicate that an expression is among values, with the list as the receiver or as an argument. -/
inductive Membership (e : Expr) (values : List Json) : Expr → Prop
  | receiver : Membership e values (.call .contains (some (.constant (.arr values))) [e])
  | argument : Membership e values (.call .contains none [.constant (.arr values), e])

/-- The predicate that an expression is equal to one of the values, grouped in any way. -/
inductive Equalities (e : Expr) : List Json → Expr → Prop
  | single (value : Json) : Equalities e [value] (e.equalTo value)
  | either {vs ws : List Json} {left right : Expr} (hleft : Equalities e vs left)
      (hright : Equalities e ws right) : Equalities e (vs ++ ws) (.binary .orElse left right)

end Expr

namespace Filter

/-- The filter that a field is equal to one of the values. -/
inductive Equalities (field : FieldRef) : List Json → Filter → Prop
  | single (value : Json) : Equalities field [value] (.clause (field.equality value))
  | either {vs ws : List Json} {left right : Filter} (hleft : Equalities field vs left)
      (hright : Equalities field ws right) : Equalities field (vs ++ ws) (.or [left, right])

namespace Equalities

variable {values : List Json} {f : Filter}

/-- There is a value to be equal to. -/
theorem ne_nil (h : Equalities field values f) : values ≠ [] := by
  induction h with
  | single value => exact List.cons_ne_nil _ _
  | either _ _ hl _ => exact List.append_ne_nil_of_left_ne_nil hl _

/-- The clauses of equalities, however grouped, are one for each value in order. -/
theorem clauses_eq (h : Equalities field values f) : f.clauses = values.map field.equality := by
  induction h with
  | single value => rfl
  | either _ _ hl hr => simp [clauses, clausesOf, hl, hr]

/-- Equalities hold of a document if one of them does. -/
theorem holds_eq (h : Equalities field values f) :
    f.holds m bindings d = values.any fun v => (field.equality v).holds m bindings d := by
  induction h with
  | single value => simp [holds]
  | either _ _ hl hr => simp [holds, anyHolds, hl, hr]

/-- A disjunction of equalities is one conjunct. -/
theorem conjuncts_eq (h : Equalities field values f) : f.conjuncts = [f] := by
  cases h <;> rfl

end Equalities

section Compile

variable {parameter : String} {type : TypeDecl} {e body : Expr} {values : List Json}
  (hfield : e.isField parameter = true) (hread : FieldRef.ofExpr m ⟨parameter, type⟩ e = .ok field)

include hfield hread

/-- A membership is compiled to one clause. -/
theorem ofExpr_membership (h : e.Membership values body) :
    ofExpr m ⟨parameter, type⟩ false body = .ok (.clause (field.membership values)) := by
  have hcontains : ofContains m ⟨parameter, type⟩ (.constant (.arr values)) e =
      .ok (.clause (field.membership values)) := by
    have hlist : Expr.isField parameter (.constant (.arr values)) = false := rfl
    simp only [ofContains, hlist, hfield, hread, Bool.false_eq_true, if_false, if_true]
    rfl
  cases h <;> exact Except.bind_eq_ok.mpr ⟨_, hcontains, rfl⟩

/-- A disjunction of equalities is compiled to the disjunction of their clauses. -/
theorem ofExpr_equalities (hsingle : field.declared.isCollection = false) (h : e.Equalities values body) :
    ∃ f, ofExpr m ⟨parameter, type⟩ false body = .ok f ∧ Equalities field values f := by
  induction h with
  | single value =>
    exact ⟨_, ofExpr_comparison rfl hfield hread hsingle rfl, .single value⟩
  | either _ _ hl hr =>
    obtain ⟨left, hleft, hl⟩ := hl
    obtain ⟨right, hright, hr⟩ := hr
    refine ⟨.or [left, right], ?_, .either hl hr⟩
    rw [ofExpr]
    exact Except.bind_eq_ok.mpr ⟨left, hleft, Except.bind_eq_ok.mpr ⟨right, hright, rfl⟩⟩

end Compile

end Filter

/-! ## The query -/

/-- The query for the rows of a root of which a predicate holds. -/
def Lambda.query (m : Model) (bindings : Bindings) (root : String) (l : Lambda) :
    Except QueryError BoundQuery :=
  Pipeline.compile m ⟨root, [.filter l]⟩ >>= Template.bind m bindings

namespace FieldRef

/-- A single equality with an identity is looked up. It is accepted if the value can be converted, and is not
null. -/
theorem lookup_binds_iff {key : String} {value : Json} (hid : field.isDocumentId = true)
    (hsingle : value.isArray = false)
    (halike : Template.SpelledAlike m bindings key [.clause (field.equality value)]) :
    Clause.Binds m bindings ⟨FieldRef.documentId key, .equalTo, .constant value⟩ ↔
      (∃ w, (Operand.constant value).bindFor m bindings field = .ok w) ∧ value ≠ .null := by
  have hkey : (field.equality value).isKeyEquality = true := by
    simp [Clause.isKeyEquality, equality, hid]
  constructor
  · intro hbinds
    obtain ⟨_, w, ⟨⟩, hnull, -, hw⟩ := Clause.binds_iff.mp hbinds
    refine ⟨⟨w, halike hkey w hw⟩, ?_⟩
    rintro rfl
    cases hnull
  · rintro ⟨⟨w, hw⟩, hne⟩
    have hnull : value = .null → field.isDocumentId = false := fun h => absurd h hne
    rw [Operand.bindFor_of_single hsingle hnull] at hw
    obtain ⟨v, hv, hw⟩ := Except.bind_eq_ok.mp hw
    rw [Operand.toIdentity, if_pos hid] at hw
    obtain ⟨id, hidentity, -⟩ := Except.map_eq_ok.mp hw
    -- the value is an identity as it stands, because a number is one as well as its variant
    have hvalue : ∃ id, (Operand.constant value).identity value = .ok id := by
      rcases Operand.eq_or_num_of_toVariant hv with rfl | ⟨name, n, rfl, rfl⟩
      · exact ⟨id, hidentity⟩
      · exact ⟨n.text, rfl⟩
    obtain ⟨id, hvalue⟩ := hvalue
    have hbound : (Operand.constant value).bind bindings = .ok value := rfl
    obtain ⟨hbinds, -⟩ := Template.lookup_clause (d := ⟨"", .null⟩) hbound hvalue
    exact hbinds

/-- Equalities are accepted if each value can be converted, and null may be compared with the field. A single
equality with an identity is looked up, which null cannot be. -/
theorem equalities_accepted_iff {key : String} {values : List Json} {f : Filter}
    (hf : Filter.Equalities field values f) (hsingle : ∀ v ∈ values, v.isArray = false)
    (halike : Template.SpelledAlike m bindings key [f]) :
    (∀ c ∈ Filter.clausesOf (Template.spelled key [f]), c.Binds m bindings) ↔
      (∀ v ∈ values, ∃ w, (Operand.constant v).bindFor m bindings field = .ok w) ∧
        (.null ∈ values → field.persistsNull = true ∧
          (field.isDocumentId = true → values ≠ [.null])) := by
  have hclauses : (∀ c ∈ f.clauses, c.Binds m bindings) ↔
      (∀ v ∈ values, ∃ w, (Operand.constant v).bindFor m bindings field = .ok w) ∧
        (.null ∈ values → field.persistsNull = true) := by
    simp only [hf.clauses_eq, List.forall_mem_map, equality_binds_iff, forall₂_and]
    exact and_congr_right fun _ => ⟨fun h hmem => h _ hmem rfl, fun h v hv hnull => h (hnull ▸ hv)⟩
  cases hf with
  | @either vs ws left right hl hr =>
    -- two or more equalities are never looked up
    have htwo : vs ++ ws ≠ [.null] := by
      intro h
      rcases List.append_eq_singleton_iff.mp h with ⟨h, -⟩ | ⟨-, h⟩
      · exact hl.ne_nil h
      · exact hr.ne_nil h
    have hspelled : Template.spelled key [.or [left, right]] = [.or [left, right]] := rfl
    rw [hspelled, Filter.clausesOf, Filter.clausesOf, List.append_nil, hclauses]
    exact and_congr_right fun _ =>
      forall_congr' fun _ => ⟨fun h => ⟨h, fun _ => htwo⟩, fun h => h.1⟩
  | single value =>
    cases hid : field.isDocumentId with
    | false =>
      have hspelled : Template.spelled key [.clause (field.equality value)] =
          [.clause (field.equality value)] := by
        simp [Template.spelled, Clause.isKeyEquality, equality, hid]
      rw [hspelled, Filter.clausesOf, Filter.clausesOf, List.append_nil, hclauses]
      simp
    | true =>
      have hspelled : Template.spelled key [.clause (field.equality value)] =
          [.clause ⟨FieldRef.documentId key, .equalTo, .constant value⟩] := by
        simp [Template.spelled, Clause.isKeyEquality, equality, hid]
      rw [hspelled]
      simp only [Filter.clausesOf, Filter.clauses, List.append_nil, List.forall_mem_singleton]
      rw [lookup_binds_iff hid (hsingle value (List.mem_singleton_self value)) halike]
      simp only [List.mem_singleton]
      exact and_congr_right fun _ => ⟨fun hne h => absurd h.symm hne,
        fun h hnull => (h hnull.symm).2 trivial (congrArg (fun v => [v]) hnull)⟩

/-- The two predicates are accepted together exactly if null is treated alike. -/
theorem nullsAlike_iff {values : List Json} {converts : Prop} :
    ((converts ∧ (.null ∈ values → field.isDocumentId = false)) ↔
        converts ∧ (.null ∈ values → field.persistsNull = true ∧
          (field.isDocumentId = true → values ≠ [.null]))) ↔
      (.null ∈ values → converts → field.NullsAlike values) := by
  unfold NullsAlike
  cases field.isDocumentId <;> cases field.persistsNull <;> simp <;> tauto

end FieldRef

namespace Lambda

section Query

variable {root parameter : String} {entity type : TypeDecl} {e body : Expr} {values : List Json}
  (hroot : m.entityNamed root = .ok entity) (htype : m.typeNamed entity.name = .ok type)
  (hfield : e.isField parameter = true) (hread : FieldRef.ofExpr m ⟨parameter, type⟩ e = .ok field)
  (hvalues : ∀ v ∈ values, v.isArray = false)

include hroot htype hfield hread hvalues

/-- The query of a membership is accepted if each candidate can be converted, and null is no identity. It is for
the documents whose field is equal to one of them. -/
theorem query_of_membership (hne : values ≠ []) (h : e.Membership values body) :
    ((∃ q, query m bindings root ⟨parameter, body⟩ = .ok q) ↔
      (∀ v ∈ values, ∃ w, (Operand.constant v).bindFor m bindings field = .ok w) ∧
        (.null ∈ values → field.isDocumentId = false)) ∧
    ∀ q, query m bindings root ⟨parameter, body⟩ = .ok q → ∀ d,
      q.access.covers d = values.any fun v => (field.equality v).holds m bindings d := by
  obtain ⟨collection, key, hkind⟩ := Model.exists_kind_of_entityNamed hroot
  have hfilters := Filter.ofLambdas_singleton.mpr
    (Filter.ofLambda_eq_ok htype (Filter.ofExpr_membership hfield hread h))
  -- the one clause of the list is never looked up
  have hkey : (field.membership values).isKeyEquality = false := by
    simp [Clause.isKeyEquality, FieldRef.membership]
  have hspelled : Template.spelled key (Filter.conjuncts (.clause (field.membership values))) =
      [.clause (field.membership values)] := by
    simp [Filter.conjuncts, Template.spelled, hkey]
  have hsingle (c : Clause) (hc : Filter.conjuncts (.clause (field.membership values)) = [.clause c])
      (hlookup : c.isKeyEquality = true) (value : Json) (_ : c.value.bind bindings = .ok value) :
      value.isArray = false := by
    cases hc
    simp [hkey] at hlookup
  obtain ⟨haccepted, hcovers⟩ := Pipeline.exists_bound_iff hroot hkind hfilters hsingle
  rw [hspelled] at haccepted hcovers
  constructor
  · refine haccepted.trans ?_
    simp only [Filter.clausesOf, Filter.clauses, List.append_nil, List.forall_mem_singleton]
    exact FieldRef.membership_binds_iff hne hvalues
  · intro q hq d
    have hbinds := haccepted.mp ⟨q, hq⟩ _ List.mem_cons_self
    rw [hcovers q hq d, Filter.allHold, Filter.allHold, Bool.and_true]
    exact FieldRef.membership_holds hne hvalues hbinds

/-- The query of equalities is accepted if each value can be converted, and null may be compared with the field
and is not looked up. It is for the documents whose field is equal to one of the values. -/
theorem query_of_equalities (hscalar : field.declared.isCollection = false) (h : e.Equalities values body)
    (halike : ∀ v key, values = [v] →
      Template.SpelledAlike m bindings key [.clause (field.equality v)]) :
    ((∃ q, query m bindings root ⟨parameter, body⟩ = .ok q) ↔
      (∀ v ∈ values, ∃ w, (Operand.constant v).bindFor m bindings field = .ok w) ∧
        (.null ∈ values → field.persistsNull = true ∧
          (field.isDocumentId = true → values ≠ [.null]))) ∧
    ∀ q, query m bindings root ⟨parameter, body⟩ = .ok q → ∀ d,
      q.access.covers d = values.any fun v => (field.equality v).holds m bindings d := by
  obtain ⟨collection, key, hkind⟩ := Model.exists_kind_of_entityNamed hroot
  obtain ⟨f, hf, hfilter⟩ := Filter.ofExpr_equalities hfield hread hscalar h
  have halike : Template.SpelledAlike m bindings key [f] := by
    cases hfilter with
    | single value => exact halike value key rfl
    | either _ _ => trivial
  have hfilters := Filter.ofLambdas_singleton.mpr (Filter.ofLambda_eq_ok htype hf)
  rw [hfilter.conjuncts_eq] at hfilters
  have hsingle (c : Clause) (hc : [f] = [.clause c]) (_ : c.isKeyEquality = true) (value : Json)
      (hvalue : c.value.bind bindings = .ok value) : value.isArray = false := by
    cases hc
    cases hfilter
    cases hvalue
    exact hvalues _ (List.mem_singleton_self _)
  obtain ⟨haccepted, hcovers⟩ := Pipeline.exists_bound_iff hroot hkind hfilters hsingle
  refine ⟨haccepted.trans (FieldRef.equalities_accepted_iff hfilter hvalues halike), fun q hq d => ?_⟩
  obtain ⟨hspelled, -⟩ := Template.spelled_holds (d := d) halike (haccepted.mp ⟨q, hq⟩)
  rw [hcovers q hq d, hspelled, Filter.allHold, Filter.allHold, Bool.and_true, hfilter.holds_eq]

end Query

/-- A field is among values exactly if it is equal to one of them: the two predicates are accepted together
unless null is treated differently, and then they are for the same documents. A single value is looked up when
it is compared with the identity, so it has to be the same value as the key.

The values may be of any kinds and in any order, repeated ones included, and the equalities may be grouped in
any way. Lists are left out: a list as a candidate is another kind of membership. -/
theorem query_membership {root parameter : String} {entity type : TypeDecl} {e isAmong isOne : Expr}
    {values : List Json} (hroot : m.entityNamed root = .ok entity)
    (htype : m.typeNamed entity.name = .ok type) (hfield : e.isField parameter = true)
    (hread : FieldRef.ofExpr m ⟨parameter, type⟩ e = .ok field)
    (hscalar : field.declared.isCollection = false) (hvalues : ∀ v ∈ values, v.isArray = false)
    (hmembership : e.Membership values isAmong) (hequalities : e.Equalities values isOne)
    (halike : ∀ v key, values = [v] →
      Template.SpelledAlike m bindings key [.clause (field.equality v)]) :
    (((∃ q, query m bindings root ⟨parameter, isAmong⟩ = .ok q) ↔
        ∃ q, query m bindings root ⟨parameter, isOne⟩ = .ok q) ↔
      (.null ∈ values → (∀ v ∈ values, ∃ w, (Operand.constant v).bindFor m bindings field = .ok w) →
        field.NullsAlike values)) ∧
    ∀ q q', query m bindings root ⟨parameter, isAmong⟩ = .ok q →
      query m bindings root ⟨parameter, isOne⟩ = .ok q' → ∀ d, q.access.covers d = q'.access.covers d := by
  obtain ⟨f, -, hfilter⟩ := Filter.ofExpr_equalities hfield hread hscalar hequalities
  have hamong : ((∃ q, query m bindings root ⟨parameter, isAmong⟩ = .ok q) ↔ _) ∧ _ :=
    query_of_membership hroot htype hfield hread hvalues hfilter.ne_nil hmembership
  obtain ⟨hamong, hcovers⟩ := hamong
  obtain ⟨hone, hcovers'⟩ := query_of_equalities hroot htype hfield hread hvalues hscalar hequalities halike
  constructor
  · rw [hamong, hone]
    exact FieldRef.nullsAlike_iff
  · intro q q' hq hq' d
    rw [hcovers q hq d, hcovers' q' hq' d]

/-- Items with a level that may be null. -/
def nullableLevelItem : TypeDecl :=
  ⟨"Item", .entity "items" "Id",
    [.named "Id" (.scalar .string),
      ((Property.named "Level" (.scalar (.enum "Level"))).inField "level").persistingNull], [], []⟩

/-- The model of items with a level that may be null. -/
def nullableLevelModel : Model :=
  (Model.empty.withEnum Filter.levels).withType nullableLevelItem

/-- The level of an item. -/
def levelMember : Expr :=
  .member (.param "i") "Level"

/-- The field of the level. -/
def nullableLevel : FieldRef :=
  { Filter.levelField with persistsNull := true }

/-- Levels by number and by name, and no level. -/
def someLevels : List Json :=
  [.int 0, .null, .str "High"]

/-- Two levels and no level, as candidates and as equalities, select the same items. -/
theorem query_membership_someLevels :
    ∃ q q', query nullableLevelModel [] "Item"
        ⟨"i", .call .contains (some (.constant (.arr someLevels))) [levelMember]⟩ = .ok q ∧
      query nullableLevelModel [] "Item" ⟨"i", .binary .orElse (levelMember.equalTo (.int 0))
        (.binary .orElse (levelMember.equalTo .null) (levelMember.equalTo (.str "High")))⟩ = .ok q' ∧
      ∀ d, q.access.covers d = q'.access.covers d := by
  have hroot : nullableLevelModel.entityNamed "Item" = .ok nullableLevelItem := rfl
  have hread : FieldRef.ofExpr nullableLevelModel ⟨"i", nullableLevelItem⟩ levelMember =
      .ok nullableLevel := rfl
  have hequalities : levelMember.Equalities someLevels (.binary .orElse (levelMember.equalTo (.int 0))
      (.binary .orElse (levelMember.equalTo .null) (levelMember.equalTo (.str "High")))) :=
    .either (.single _) (.either (.single _) (.single _))
  have halike (v : Json) (key : String) (h : someLevels = [v]) :
      Template.SpelledAlike nullableLevelModel [] key [.clause (nullableLevel.equality v)] := nomatch h
  obtain ⟨-, hsame⟩ :=
    query_membership hroot rfl rfl hread rfl (by decide) .receiver hequalities halike
  exact ⟨_, _, rfl, rfl, hsame _ _ rfl rfl⟩

/-- The tag of a note, which does not persist null. -/
def tagMember : Expr :=
  .member (.param "n") "Tag"

/-- Null among the candidates is let through where the equality with null is refused. -/
theorem query_membership_null :
    tagMember.Membership [.null, .str "x"]
        (.call .contains (some (.constant (.arr [.null, .str "x"]))) [tagMember]) ∧
      tagMember.Equalities [.null, .str "x"]
        (.binary .orElse (tagMember.equalTo .null) (tagMember.equalTo (.str "x"))) ∧
      (∃ q, query Model.notes [] "Note"
        ⟨"n", .call .contains (some (.constant (.arr [.null, .str "x"]))) [tagMember]⟩ = .ok q) ∧
      query Model.notes [] "Note"
        ⟨"n", .binary .orElse (tagMember.equalTo .null) (tagMember.equalTo (.str "x"))⟩ =
          .error (.nullFilter "Tag") :=
  ⟨.receiver, .either (.single _) (.single _), ⟨_, rfl⟩, rfl⟩

end Lambda

end DocumentQuery
