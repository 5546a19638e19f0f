import DocumentQuery.Proofs.Ordering.Value

/-!
# Equality and order of values

The store decides equality and order apart from each other. Values that the order does not tell apart are
tied: they are equal but for numbers that are the same double and for objects, of which only the sizes are
looked at. So of two values of one kind exactly one precedes the other or they are tied, and equal values are
tied (`FilterOp.holds_of_rank_eq`). Ties are broken by equality in two places only. Objects of one size may
differ, and so may numbers inside lists that are the same double. `Json.Aligned` names what stands in the same
place of two values, so that this can be said of values nested at any depth.

## Main definitions

* `Json.tied` — values that the order does not tell apart
* `Json.Aligned` — what stands in the same place of two values
-/

namespace DocumentQuery

/-- Numbers that are the same are the same double. -/
theorem Number.sameFloat_of_same {m n : Number} (h : m.same n = true) : m.sameFloat n = true := by
  cases m <;> cases n <;> simp_all [Number.same, Number.sameFloat, Number.toFloat]

namespace Json

/-! ## Ties -/

mutual

/-- Whether the order does not tell two values apart. The recursion is that of the order: into lists, but not
into objects. -/
def tied : Json → Json → Bool
  | .null, .null => true
  | .bool a, .bool b => a == b
  | .num a, .num b => a.sameFloat b
  | .str a, .str b => a == b
  | .arr a, .arr b => tiedItems a b
  | .obj a, .obj b => a.length == b.length
  | _, _ => false

/-- Whether the order does not tell two lists of values apart. -/
def tiedItems : List Json → List Json → Bool
  | [], [] => true
  | a :: as, b :: bs => tied a b && tiedItems as bs
  | _, _ => false

end

/-- Values of different kinds are not tied. -/
theorem tied_of_rank_ne {a b : Json} (h : a.rank ≠ b.rank) : a.tied b = false := by
  cases a <;> cases b <;> first | rfl | exact absurd rfl h

theorem order_ne_eq_of_rank_ne {a b : Json} (h : a.rank ≠ b.rank) : a.order b ≠ .eq := by
  rw [order_of_rank_ne h]
  exact fun he => h (Nat.compare_eq_eq.mp he)

mutual

/-- Ties are what the order leaves undecided. -/
theorem order_eq_iff_tied (a b : Json) : a.order b = .eq ↔ a.tied b = true := by
  by_cases hrank : a.rank = b.rank
  · cases a <;> cases b <;> simp only [rank, Nat.reduceEqDiff, reduceCtorEq] at hrank
    case null.null => simp [order, tied, rank]
    case bool.bool => simp [order, tied]
    case num.num => simp [order, tied, Number.compare, Number.sameFloat]
    case str.str => simp [order, tied]
    case arr.arr as bs => simpa only [order, tied] using orderItems_eq_iff_tiedItems as bs
    case obj.obj => simp [order, tied]
  · simp [tied_of_rank_ne hrank, order_ne_eq_of_rank_ne hrank]

theorem orderItems_eq_iff_tiedItems : (as bs : List Json) →
    (orderItems as bs = .eq ↔ tiedItems as bs = true)
  | [], [] => by simp [orderItems, tiedItems]
  | [], _ :: _ => by simp [orderItems, tiedItems]
  | _ :: _, [] => by simp [orderItems, tiedItems]
  | a :: as, b :: bs => by
    rw [orderItems, tiedItems, Ordering.then_eq_eq, Bool.and_eq_true, order_eq_iff_tied a b,
      orderItems_eq_iff_tiedItems as bs]

end

/-! ## Equality breaks ties -/

/-- Objects with the same members are of one size. -/
theorem sameMembers_length : (xs ys : List (String × Json)) → sameMembers xs ys = true →
    xs.length = ys.length
  | [], [], _ => rfl
  | (_, _) :: xs, (_, _) :: ys, h => by
    simp only [sameMembers, Bool.and_eq_true] at h
    exact congrArg Nat.succ (sameMembers_length xs ys h.2)

mutual

/-- Equal values are tied. -/
theorem tied_of_same (a b : Json) (h : a.same b = true) : a.tied b = true := by
  cases a <;> cases b <;> simp only [same, Bool.false_eq_true] at h
  case null.null => rfl
  case bool.bool => exact h
  case num.num => exact Number.sameFloat_of_same h
  case str.str => exact h
  case arr.arr as bs => exact tiedItems_of_sameItems as bs h
  case obj.obj xs ys => exact beq_iff_eq.mpr (sameMembers_length xs ys h)

theorem tiedItems_of_sameItems : (as bs : List Json) → sameItems as bs = true →
    tiedItems as bs = true
  | [], [], _ => rfl
  | a :: as, b :: bs, h => by
    simp only [sameItems, Bool.and_eq_true] at h
    rw [tiedItems, tied_of_same a b h.1, tiedItems_of_sameItems as bs h.2]
    rfl

end

/-- What stands in the same place of two values, at any depth of lists. Objects are not gone into, since a tie
does not look inside them. -/
inductive Aligned : Json → Json → Json → Json → Prop
  | here (a b : Json) : Aligned a b a b
  | item {as bs : List Json} {i : Nat} {a b u v : Json} (ha : as[i]? = some a) (hb : bs[i]? = some b)
      (inside : Aligned a b u v) : Aligned (.arr as) (.arr bs) u v

/-- What stands in the same place of the first items does so in the lists. -/
theorem Aligned.head {a b u v : Json} {as bs : List Json} (h : Aligned a b u v) :
    Aligned (.arr (a :: as)) (.arr (b :: bs)) u v :=
  .item (i := 0) rfl rfl h

/-- What stands in the same place of the other items does so in the lists. -/
theorem Aligned.tail {a b u v : Json} {as bs : List Json} (hu : u.isArray = false)
    (h : Aligned (.arr as) (.arr bs) u v) : Aligned (.arr (a :: as)) (.arr (b :: bs)) u v := by
  cases h with
  | here => exact nomatch hu
  | @item _ _ i _ _ _ _ ha hb inside => exact .item (i := i + 1) ha hb inside

mutual

/-- Tied values are equal if the objects that stand in the same place are, and if numbers there that are the
same double are one number. -/
theorem same_of_tied (a b : Json) (h : a.tied b = true)
    (objects : ∀ xs ys, a.Aligned b (.obj xs) (.obj ys) → sameMembers xs ys = true)
    (numbers : ∀ m n, a.Aligned b (.num m) (.num n) → m.sameFloat n = true → m.same n = true) :
    a.same b = true := by
  cases a <;> cases b <;> simp only [tied, Bool.false_eq_true] at h
  case null.null => rfl
  case bool.bool => exact h
  case num.num m n => exact numbers m n (.here _ _) h
  case str.str => exact h
  case arr.arr as bs => exact sameItems_of_tiedItems as bs h objects numbers
  case obj.obj xs ys => exact objects xs ys (.here _ _)

theorem sameItems_of_tiedItems : (as bs : List Json) → tiedItems as bs = true →
    (∀ xs ys, Aligned (.arr as) (.arr bs) (.obj xs) (.obj ys) → sameMembers xs ys = true) →
    (∀ m n, Aligned (.arr as) (.arr bs) (.num m) (.num n) → m.sameFloat n = true →
      m.same n = true) →
    sameItems as bs = true
  | [], [], _, _, _ => rfl
  | a :: as, b :: bs, h, objects, numbers => by
    simp only [tiedItems, Bool.and_eq_true] at h
    have hhead : a.same b = true :=
      same_of_tied a b h.1 (fun xs ys hat => objects xs ys hat.head)
        (fun m n hat => numbers m n hat.head)
    have htail : sameItems as bs = true :=
      sameItems_of_tiedItems as bs h.2 (fun xs ys hat => objects xs ys (hat.tail rfl))
        (fun m n hat => numbers m n (hat.tail rfl))
    rw [sameItems, hhead, htail]
    rfl

end

/-- Equality of the store reads numbers as doubles only outside of lists and objects. -/
theorem equates_eq_same {a b : Json} (h : ∀ m, a ≠ .num m) : a.equates b = a.same b := by
  cases a <;> first | rfl | exact absurd rfl (h _)

theorem tied_of_equates {a b : Json} (h : a.equates b = true) : a.tied b = true := by
  by_cases hnum : ∃ m, a = .num m
  · obtain ⟨m, rfl⟩ := hnum
    cases b <;> exact h
  · rw [equates_eq_same fun m hm => hnum ⟨m, hm⟩] at h
    exact tied_of_same a b h

/-- Tied values are equal for a filter, up to what stands in the same place of them. -/
theorem equates_of_tied {a b : Json} (h : a.tied b = true)
    (objects : ∀ xs ys, a.Aligned b (.obj xs) (.obj ys) → sameMembers xs ys = true)
    (numbers : ∀ m n, a.isArray = true → a.Aligned b (.num m) (.num n) → m.sameFloat n = true →
      m.same n = true) :
    a.equates b = true := by
  cases a with
  | num m => cases b <;> exact h
  | arr as =>
    rw [equates_eq_same (by simp)]
    exact same_of_tied _ b h objects fun m n => numbers m n rfl
  | _ =>
    rw [equates_eq_same (by simp)]
    refine same_of_tied _ b h objects fun m n hat => ?_
    -- no number stands inside a value that is neither a number nor a list
    cases hat

end Json

/-! ## The comparisons of a filter -/

namespace FilterOp

/-- Of two values of one kind, exactly one precedes the other or they are tied, and the comparisons that
include equality include the ties. Equal values are tied. The converse holds up to what stands in the same
place of the values: objects that are tied by their sizes, and numbers inside lists that are the same double,
may still differ.

A null is compared with nothing by a filter, which is why the values are not null. Both exceptions are real
(`none_holds_of_tied_objects`). -/
theorem holds_of_rank_eq {a b : Json} (hrank : a.rank = b.rank) (hnull : a ≠ .null) :
    [lessThan.holds a b, a.tied b, greaterThan.holds a b].count true = 1 ∧
    lessThanOrEqualTo.holds a b = (lessThan.holds a b || a.tied b) ∧
    greaterThanOrEqualTo.holds a b = (greaterThan.holds a b || a.tied b) ∧
    notEqualTo.holds a b = !equalTo.holds a b ∧
    (equalTo.holds a b = true → a.tied b = true) ∧
    ((∀ xs ys, a.Aligned b (.obj xs) (.obj ys) → Json.sameMembers xs ys = true) →
      (∀ m n, a.isArray = true → a.Aligned b (.num m) (.num n) → m.sameFloat n = true →
        m.same n = true) →
      equalTo.holds a b = a.tied b) := by
  have hnonnull : a.isNull = false := by
    cases a <;> first | rfl | exact absurd rfl hnull
  have hcomparable : a.comparable b = true := by
    simp [Json.comparable, hrank, hnonnull]
  have htied : a.tied b = (a.order b == .eq) := by
    rw [Bool.eq_iff_iff, beq_iff_eq]
    exact (Json.order_eq_iff_tied a b).symm
  refine ⟨?_, ?_, ?_, ?_, Json.tied_of_equates, fun objects numbers => ?_⟩
  · simp only [holds, hcomparable, htied, Bool.true_and]
    cases a.order b <;> rfl
  · simp only [holds, hcomparable, htied, Bool.true_and]
    cases a.order b <;> rfl
  · simp only [holds, hcomparable, htied, Bool.true_and]
    cases a.order b <;> rfl
  · simp only [holds, hnonnull, Bool.not_false, Bool.true_and]
  · rw [Bool.eq_iff_iff]
    exact ⟨Json.tied_of_equates, fun h => Json.equates_of_tied h objects numbers⟩

/-- Lists with objects of one size in the same place, which are tied but not equal. -/
theorem holds_of_rank_eq_nested :
    (Json.arr [.str "x", .obj [("k", .null)]]).rank =
        (Json.arr [.str "x", .obj [("l", .bool true)]]).rank ∧
      Json.arr [.str "x", .obj [("k", .null)]] ≠ .null ∧
      lessThanOrEqualTo.holds (.arr [.str "x", .obj [("k", .null)]])
        (.arr [.str "x", .obj [("l", .bool true)]]) = true ∧
      notEqualTo.holds (.arr [.str "x", .obj [("k", .null)]])
        (.arr [.str "x", .obj [("l", .bool true)]]) = true := by
  obtain ⟨-, hle, -, hne, -⟩ := holds_of_rank_eq (a := .arr [.str "x", .obj [("k", .null)]])
    (b := .arr [.str "x", .obj [("l", .bool true)]]) rfl Json.noConfusion
  exact ⟨rfl, Json.noConfusion, hle.trans (by decide), hne.trans (by decide)⟩

/-- Objects of one size that differ: they are not equal and none precedes the other. -/
theorem none_holds_of_tied_objects :
    (Json.obj [("a", .int 1)]).rank = (Json.obj [("a", .int 2)]).rank ∧
      Json.obj [("a", .int 1)] ≠ .null ∧
      [lessThan, equalTo, greaterThan].countP
        (·.holds (.obj [("a", .int 1)]) (.obj [("a", .int 2)])) = 0 ∧
      lessThanOrEqualTo.holds (.obj [("a", .int 1)]) (.obj [("a", .int 2)]) = true ∧
      greaterThanOrEqualTo.holds (.obj [("a", .int 1)]) (.obj [("a", .int 2)]) = true := by
  refine ⟨rfl, Json.noConfusion, ?_, ?_, ?_⟩ <;> decide

end FilterOp

end DocumentQuery
