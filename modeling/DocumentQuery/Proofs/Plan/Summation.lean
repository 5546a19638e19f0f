import DocumentQuery.Proofs.Plan.Reduction
import DocumentQuery.Proofs.Predicate.Meaning

/-!
# Sums and averages by the store

A sum or an average of the documents of a query is asked of the store, or the documents are fetched and their
numbers are added afterwards, and which of the two happens is up to what the store can do. Both ways pass over
missing fields, nulls and what is no number, and both add integers exactly as long as they can. They treat a
result that is not finite differently. The fetched documents then come to null. An answer of the store that is
null is taken to say that there are no numbers: a sum comes to zero, and an average is refused because the
sequence is empty.

So the two ways agree if and only if the result is finite (`Store.reduced_eq_folded_iff`).

Finiteness is a property of the numbers that are met and not of the way (`Number.SumFinite`): a sum of
integers that can be added exactly is finite whatever its size as a double, and a partial sum that is too
large makes the whole a sum of doubles.

## Main definitions

* `Store.reduced`, `Store.folded` — the two ways to a sum or an average
* `Number.SumFinite`, `Number.AverageFinite` — numbers whose sum or average is a number
-/

namespace DocumentQuery

/-! ## Results that are not finite -/

/-- A double that is not finite is written as null. -/
theorem Json.isNull_ofFloat (f : Float) : (Json.ofFloat f).isNull = !f.isFinite := by
  unfold Json.ofFloat Number.ofFloat?
  cases f.isFinite <;> rfl

namespace Number

variable {ns : List Number}

/-- The sum of numbers is a number: they can be added as integers, or their sum as doubles is finite. -/
def SumFinite (ns : List Number) : Prop :=
  (addIntegers 0 ns).isSome = true ∨ (addFloats ns).isFinite = true

/-- The average of numbers is a number, or there are none of them. -/
def AverageFinite (ns : List Number) : Prop :=
  ns.isEmpty = true ∨ (addFloats ns / Float.ofNat ns.length).isFinite = true

instance : DecidablePred SumFinite := fun _ => inferInstanceAs (Decidable (_ ∨ _))

instance : DecidablePred AverageFinite := fun _ => inferInstanceAs (Decidable (_ ∨ _))

/-- A sum is null if it is not finite. -/
theorem isNull_sum_iff : (sum ns).isNull = true ↔ ¬SumFinite ns := by
  unfold sum SumFinite
  cases addIntegers 0 ns with
  | some total => exact ⟨nofun, fun h => absurd (.inl rfl) h⟩
  | none =>
    show (Json.ofFloat (addFloats ns)).isNull = true ↔ _
    rw [Json.isNull_ofFloat]
    cases (addFloats ns).isFinite <;> decide

/-- An average of numbers is null if it is not finite. -/
theorem isNull_average?_iff : (∃ v ∈ average? ns, v.isNull = true) ↔ ¬AverageFinite ns := by
  unfold average? AverageFinite
  cases ns.isEmpty with
  | true => exact ⟨nofun, fun h => absurd (.inl rfl) h⟩
  | false =>
    generalize addFloats ns / Float.ofNat ns.length = average
    simp only [Bool.false_eq_true, if_false, Option.mem_some_iff, exists_eq_left', Json.isNull_ofFloat]
    cases average.isFinite <;> decide

end Number

namespace Reduction

variable {path : String} {ns : List Number}

/-- A sum by the store is kept as it is unless it is null, and then it is zero. -/
theorem finish_sum_iff (skip : Nat) :
    finish (.sum path) skip (Number.sum ns) = .ok (Number.sum ns) ↔ Number.SumFinite ns := by
  show Except.ok (if (Number.sum ns).isNull then Json.int 0 else Number.sum ns) = _ ↔ _
  by_cases hfinite : Number.SumFinite ns
  · rw [if_neg fun hnull => Number.isNull_sum_iff.mp hnull hfinite]
    exact iff_of_true rfl hfinite
  · have hnull := Number.isNull_sum_iff.mpr hfinite
    rw [if_pos hnull, Json.isNull_iff.mp hnull]
    exact iff_of_false nofun hfinite

/-- An average by the store is refused if it is null, and it is null if there are no numbers, but also if it
is not finite. -/
theorem finish_average_iff (skip : Nat) (nullable : Bool) {ds : List Document} :
    finish (.average path) skip ((Number.average? (numbers (some path) ds)).getD .null) =
        fold .average (some path) nullable ds ↔
      Number.AverageFinite (numbers (some path) ds) := by
  unfold finish fold
  have hnull : _ ↔ ¬Number.AverageFinite (numbers (some path) ds) := Number.isNull_average?_iff
  cases haverage : Number.average? (numbers (some path) ds) with
  | none =>
    rw [haverage] at hnull
    exact iff_of_true rfl (not_not.mp (mt hnull.mpr nofun))
  | some v =>
    simp only [haverage, Option.mem_some_iff, exists_eq_left'] at hnull
    show (if v.isNull then .error _ else Except.ok v) = .ok v ↔ _
    by_cases hv : v.isNull = true
    · rw [if_pos hv]
      exact iff_of_false nofun (hnull.mp hv)
    · rw [if_neg hv]
      exact iff_of_true rfl (not_not.mp (mt hnull.mpr hv))

end Reduction

/-! ## The two ways -/

namespace Store

variable {s : Store} {q : StoreQuery} {path : String}

/-- What the documents of a query come to when the store reduces them. -/
def reduced (s : Store) (q : StoreQuery) (reduction : StoreReduction) (skip : Nat) :
    Except StoreError (Except Failure Json) :=
  (aggregate q reduction s).1.map (Reduction.finish reduction skip)

/-- What the documents of a query come to when they are fetched first. -/
def folded (s : Store) (q : StoreQuery) (kind : AggregateKind) (path : String) (nullable : Bool) :
    Except StoreError (Except Failure Json) :=
  (runQuery q s).1.map (Reduction.fold kind (some path) nullable)

/-- Two ways to treat the documents of a query agree as far as they agree on those it brings; a query that is
rejected is rejected in both. -/
theorem map_evaluate_eq_iff {α : Type} {f g : List Document → α} :
    (s.evaluate q).map f = (s.evaluate q).map g ↔ ∀ ds, s.evaluate q = .ok ds → f ds = g ds := by
  cases hq : s.evaluate q with
  | error e => exact ⟨fun _ => nofun, fun _ => rfl⟩
  | ok documents =>
    refine ⟨fun h ds hds => ?_, fun h => congrArg Except.ok (h documents rfl)⟩
    cases hds
    exact Except.ok.inj h

/-- What a store reduces is the documents it would send. -/
theorem reduced_eq {reduction : StoreReduction} {skip : Nat} :
    s.reduced q reduction skip =
      (s.evaluate q).map fun ds => Reduction.finish reduction skip (reduce ds reduction) := by
  show ((s.evaluate q).map _).map _ = _
  cases s.evaluate q <;> rfl

/-- A sum that the store takes is the sum of the fetched documents if and only if it is finite, and the same
holds of an average; a query that is rejected is rejected in the same way.

The store, the query and the field are any, and so are the documents: fields may be missing, null, or of other
kinds. -/
theorem reduced_eq_folded_iff (s : Store) (q : StoreQuery) (path : String) (skip : Nat) (nullable : Bool) :
    (s.reduced q (.sum path) skip = s.folded q .sum path nullable ↔
        ∀ ds, s.evaluate q = .ok ds → Number.SumFinite (Reduction.numbers (some path) ds)) ∧
      (s.reduced q (.average path) skip = s.folded q .average path nullable ↔
        ∀ ds, s.evaluate q = .ok ds → Number.AverageFinite (Reduction.numbers (some path) ds)) := by
  constructor
  · rw [reduced_eq]
    refine map_evaluate_eq_iff.trans (forall₂_congr fun ds _ => ?_)
    rw [reduce, Reduction.storeNumbers_eq]
    exact Reduction.finish_sum_iff skip
  · rw [reduced_eq]
    refine map_evaluate_eq_iff.trans (forall₂_congr fun ds _ => ?_)
    rw [reduce, Reduction.storeNumbers_eq]
    exact Reduction.finish_average_iff skip nullable

/-- Readings of a sensor under the names `a`, `b` and so on. -/
def readings (values : List Json) : Store :=
  (empty true).insertAll "readings"
    ((["a", "b", "c", "d"].zip values).map fun (id, value) => (id, .obj [("value", value)]))

/-- The query for all readings. -/
def allReadings : StoreQuery := ⟨"readings", none, [], none, none⟩

/-- An integer, a null, a text and a double. -/
def mixedReadings : Store := readings [.int 1, .null, .str "2", .num (.float 0.5)]

/-- Two doubles whose sum is too large for a double. -/
def largeReadings : Store := readings [.num (.float 1.7e308), .num (.float 1.7e308)]

/-- All readings are sent. -/
theorem evaluate_allReadings (values : List Json) :
    (readings values).evaluate allReadings = .ok ((readings values).documents "readings") :=
  WellFormed.evaluate_all ((wellFormed_empty true).insertAll _ _) "readings"

/-- The integer and the double are added in both ways. -/
theorem reduced_eq_folded_readings :
    mixedReadings.reduced allReadings (.sum "value") 0 = mixedReadings.folded allReadings .sum "value" false ∧
      mixedReadings.reduced allReadings (.average "value") 0 =
        mixedReadings.folded allReadings .average "value" false := by
  have hall : mixedReadings.evaluate allReadings = .ok (mixedReadings.documents "readings") :=
    evaluate_allReadings _
  have hagree := reduced_eq_folded_iff mixedReadings allReadings "value" 0 false
  refine ⟨hagree.1.mpr fun ds hds => ?_, hagree.2.mpr fun ds hds => ?_⟩
  · rw [hall] at hds
    cases hds
    decide +kernel
  · rw [hall] at hds
    cases hds
    decide +kernel

/-- Too large a sum is zero for the store, and there is no average; when the documents are fetched both are
null. -/
theorem reduced_ne_folded_readings :
    largeReadings.reduced allReadings (.sum "value") 0 = .ok (.ok (.int 0)) ∧
      largeReadings.folded allReadings .sum "value" false = .ok (.ok .null) ∧
      largeReadings.reduced allReadings (.average "value") 0 = .ok (.error .emptySequence) ∧
      largeReadings.folded allReadings .average "value" false = .ok (.ok .null) := by
  have hall : largeReadings.evaluate allReadings = .ok (largeReadings.documents "readings") :=
    evaluate_allReadings _
  have hnumbers : Reduction.numbers (some "value") (largeReadings.documents "readings") =
      [.float 1.7e308, .float 1.7e308] := rfl
  have hsum : Number.sum [.float 1.7e308, .float 1.7e308] = .null :=
    Json.isNull_iff.mp (Number.isNull_sum_iff.mpr (by decide +kernel))
  have haverage : Number.average? [.float 1.7e308, .float 1.7e308] = some .null := by
    obtain ⟨v, hv, hnull⟩ := Number.isNull_average?_iff.mpr
      (show ¬Number.AverageFinite [.float 1.7e308, .float 1.7e308] by decide +kernel)
    rw [Option.mem_def.mp hv, Json.isNull_iff.mp hnull]
  simp only [reduced_eq, folded, runQuery, hall, Except.map, reduce, Reduction.storeNumbers_eq,
    Reduction.fold, hnumbers, hsum, haverage]
  exact ⟨rfl, trivial, rfl, trivial⟩

end Store

end DocumentQuery
