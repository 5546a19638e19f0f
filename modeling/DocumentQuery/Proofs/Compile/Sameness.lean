import DocumentQuery.Template.Basic

/-!
# Restrictions that are the same

Restrictions are compared value by value, and the two zeros among the doubles count as one value. So
restrictions that are the same need not be equal; but they are the same as themselves, and what two of them
have in common they have in common with each other (`Inclusion.sameRestrictions_euclid`). Together these are
all of an equivalence, and the two make it unnecessary to follow a chain of restrictions step by step: what
agrees with the first agrees with every other. That the order of two restrictions does not matter is a case of
it (`Inclusion.sameRestrictions_symm`).

The comparisons are recursive in both of their arguments at once, so each induction goes along the first one,
and the cases are those in which all three have the same constructor. In every other case one of the two
comparisons fails.
-/

namespace DocumentQuery

/-- Numbers that are the same as a third one are the same as each other. Among the doubles the two zeros are
same without being equal. -/
theorem Number.same_euclid {a b c : Number} (h : a.same b = true) (h' : a.same c = true) :
    b.same c = true := by
  cases a <;> cases b <;> cases c <;> simp_all [Number.same]

namespace Json

mutual

theorem same_euclid : (a : Json) → {b c : Json} → a.same b = true → a.same c = true → b.same c = true
  | .null, .null, _, _, h' => h'
  | .bool _, .bool _, .bool _, h, h' => by
    simp only [same, beq_iff_eq] at *
    exact h.symm.trans h'
  | .num _, .num _, .num _, h, h' => Number.same_euclid h h'
  | .str _, .str _, .str _, h, h' => by
    simp only [same, beq_iff_eq] at *
    exact h.symm.trans h'
  | .arr as, .arr _, .arr _, h, h' => sameItems_euclid as h h'
  | .obj as, .obj _, .obj _, h, h' => sameMembers_euclid as h h'

theorem sameItems_euclid : (as : List Json) → {bs cs : List Json} → sameItems as bs = true →
    sameItems as cs = true → sameItems bs cs = true
  | [], [], _, _, h' => h'
  | a :: as, _ :: _, _ :: _, h, h' => by
    simp only [sameItems, Bool.and_eq_true] at *
    exact ⟨same_euclid a h.1 h'.1, sameItems_euclid as h.2 h'.2⟩

theorem sameMembers_euclid : (as : List (String × Json)) → {bs cs : List (String × Json)} →
    sameMembers as bs = true → sameMembers as cs = true → sameMembers bs cs = true
  | [], [], _, _, h' => h'
  | (_, a) :: as, _ :: _, _ :: _, h, h' => by
    simp only [sameMembers, Bool.and_eq_true, beq_iff_eq] at *
    exact ⟨⟨h.1.1.symm.trans h'.1.1, same_euclid a h.1.2 h'.1.2⟩, sameMembers_euclid as h.2 h'.2⟩

end

end Json

namespace Operand

@[simp] theorem same_refl (a : Operand) : a.same a = true := by
  cases a <;> simp [same]

theorem same_euclid {a b c : Operand} (h : a.same b = true) (h' : a.same c = true) :
    b.same c = true := by
  match a, b, c with
  | .constant a, .constant _, .constant _ => exact Json.same_euclid a h h'
  | .parameter _, .parameter _, .parameter _ =>
    simp only [same, beq_iff_eq] at *
    exact h.symm.trans h'

end Operand

namespace Clause

@[simp] theorem same_refl (a : Clause) : a.same a = true := by
  simp [same]

theorem same_euclid {a b c : Clause} (h : a.same b = true) (h' : a.same c = true) :
    b.same c = true := by
  simp only [same, Bool.and_eq_true, beq_iff_eq] at *
  obtain ⟨⟨hfield, hoperator⟩, hvalue⟩ := h
  obtain ⟨⟨hfield', hoperator'⟩, hvalue'⟩ := h'
  exact ⟨⟨hfield.symm.trans hfield', hoperator.symm.trans hoperator'⟩, Operand.same_euclid hvalue hvalue'⟩

end Clause

namespace Filter

mutual

@[simp] theorem same_refl : (f : Filter) → f.same f = true
  | .clause c => c.same_refl
  | .or members => sameAll_refl members
  | .and members => sameAll_refl members

@[simp] theorem sameAll_refl : (fs : List Filter) → sameAll fs fs = true
  | [] => rfl
  | f :: fs => by simp [sameAll, same_refl f, sameAll_refl fs]

end

mutual

theorem same_euclid : (f : Filter) → {g g' : Filter} → f.same g = true → f.same g' = true →
    g.same g' = true
  | .clause _, .clause _, .clause _, h, h' => Clause.same_euclid h h'
  | .or fs, .or _, .or _, h, h' => sameAll_euclid fs h h'
  | .and fs, .and _, .and _, h, h' => sameAll_euclid fs h h'

theorem sameAll_euclid : (fs : List Filter) → {gs gs' : List Filter} → sameAll fs gs = true →
    sameAll fs gs' = true → sameAll gs gs' = true
  | [], [], _, _, h' => h'
  | f :: fs, _ :: _, _ :: _, h, h' => by
    simp only [sameAll, Bool.and_eq_true] at *
    exact ⟨same_euclid f h.1 h'.1, sameAll_euclid fs h.2 h'.2⟩

end

/-- Of filters that are the same both are empty, or none is. -/
theorem isEmpty_congr {fs gs : List Filter} (h : sameAll fs gs = true) : fs.isEmpty = gs.isEmpty := by
  match fs, gs with
  | [], [] => rfl
  | _ :: _, _ :: _ => rfl

end Filter

namespace Inclusion

@[simp] theorem sameOperand_refl (a : Option Operand) : sameOperand a a = true := by
  cases a <;> simp [sameOperand]

theorem sameOperand_euclid {a b c : Option Operand} (h : sameOperand a b = true)
    (h' : sameOperand a c = true) : sameOperand b c = true := by
  match a, b, c with
  | none, none, none => rfl
  | some _, some _, some _ => exact Operand.same_euclid h h'

/-- Of counts that are the same both are there, or none is. -/
theorem isSome_congr {a b : Option Operand} (h : sameOperand a b = true) : a.isSome = b.isSome := by
  match a, b with
  | none, none => rfl
  | some _, some _ => rfl

variable {i i' i'' : Inclusion}

@[simp] theorem sameRestrictions_refl (i : Inclusion) : i.sameRestrictions i = true := by
  simp [sameRestrictions]

/-- Restrictions that are the same as others are the same as each other. All parts of the restrictions are
compared: filters, keys and both counts. -/
theorem sameRestrictions_euclid (h : i.sameRestrictions i' = true) (h' : i.sameRestrictions i'' = true) :
    i'.sameRestrictions i'' = true := by
  simp only [sameRestrictions, Bool.and_eq_true, beq_iff_eq] at *
  obtain ⟨⟨⟨hfilters, horder⟩, hlimit⟩, hskip⟩ := h
  obtain ⟨⟨⟨hfilters', horder'⟩, hlimit'⟩, hskip'⟩ := h'
  exact ⟨⟨⟨Filter.sameAll_euclid _ hfilters hfilters', horder.symm.trans horder'⟩,
    sameOperand_euclid hlimit hlimit'⟩, sameOperand_euclid hskip hskip'⟩

/-- The order in which two restrictions are compared does not matter. -/
theorem sameRestrictions_symm (h : i.sameRestrictions i' = true) : i'.sameRestrictions i = true :=
  sameRestrictions_euclid h i.sameRestrictions_refl

/-- Of navigations with the same restrictions both are restricted, or none is. -/
theorem isRestricted_congr (h : i.sameRestrictions i' = true) : i.isRestricted = i'.isRestricted := by
  simp only [sameRestrictions, Bool.and_eq_true, beq_iff_eq] at h
  obtain ⟨⟨⟨hfilters, horder⟩, hlimit⟩, hskip⟩ := h
  rw [isRestricted, isRestricted, Filter.isEmpty_congr hfilters, horder, isSome_congr hlimit,
    isSome_congr hskip]

/-- Navigations without restrictions have the same ones. -/
theorem sameRestrictions_of_unrestricted (h : i.isRestricted = false) (h' : i'.isRestricted = false) :
    i.sameRestrictions i' = true := by
  simp only [isRestricted, Bool.or_eq_false_iff, Bool.not_eq_false', List.isEmpty_iff,
    Option.isSome_eq_false_iff, Option.isNone_iff_eq_none] at h h'
  obtain ⟨⟨⟨hfilters, horder⟩, hlimit⟩, hskip⟩ := h
  obtain ⟨⟨⟨hfilters', horder'⟩, hlimit'⟩, hskip'⟩ := h'
  rw [sameRestrictions, hfilters, hfilters', horder, horder', hlimit, hlimit', hskip, hskip']
  rfl

end Inclusion

end DocumentQuery
