import DocumentQuery.Store.Sum
import Mathlib

/-!
# Sums of one number

A sum of doubles starts at negative zero, and an average divides by the number of summands. For one
summand both leave the double as it is (`Number.negZero_add`, `Number.div_one`), so the result is finite
when the summand is, and no null takes its place (`Number.sum_singleton`, `Number.average?_singleton`).

To divide, the doubles are opened down to their mantissas and exponents. A mantissa as it is read off a
double is in canonical form, and in this form nothing is rounded.

This is needed where a query asks for the sum or the average of one field of one document: the store takes the
value out of the document, and a reduction after fetching adds it to nothing and divides it by one. Infinite
results are written as null, so whether the two agree is a question about rounding.
-/

namespace DocumentQuery.Number

open Float.Model (UnpackedFloat Format)
open Float.Model.UnpackedFloat

/-! ## Canonical form -/

/-- The unpacked numbers as they are unpacked from doubles: the mantissa has as many digits as there is room
for, or the exponent is the smallest one. Zeros, infinities and what is no number have no mantissa to speak
of. -/
def Canonical : UnpackedFloat → Prop
  | .finite _ m e _ => m < 2 ^ 53 ∧ -1074 ≤ e ∧ (2 ^ 52 ≤ m ∨ e = -1074)
  | _ => True

theorem canonical_unpack (b : BitVec Format.binary64.numBits) :
    Canonical (unpack Format.binary64 b) := by
  have hmantissa : (unpackMantissa b).toNat < 2 ^ 52 := (unpackMantissa b).isLt
  have hbias : (Format.binary64.exponentBias : Int) +
      (Format.binary64.mantissaBitsWithoutImplicit : Nat) = 1075 := rfl
  unfold unpack
  dsimp only
  split
  · split <;> trivial
  split
  next hsubnormal =>
    split
    · trivial
    · rw [hsubnormal]
      refine ⟨?_, ?_, Or.inr ?_⟩
      · omega
      · rw [hbias]; decide
      · rw [hbias]; decide
  next hnormal =>
    have hpos : (unpackExponent b).toNat ≠ 0 := fun he => hnormal (BitVec.eq_of_toNat_eq he)
    have hadd : (1#1 ++ unpackMantissa b).toNat = 2 ^ 52 + (unpackMantissa b).toNat := by
      rw [BitVec.toNat_append, ← Nat.shiftLeft_add_eq_or_of_lt hmantissa]
      rfl
    refine ⟨?_, ?_, Or.inl ?_⟩
    · rw [hadd]; omega
    · rw [hbias]; omega
    · rw [hadd]; omega

/-- In canonical form a number has the exponent that its format wants it to have. -/
theorem Canonical.targetExponent {s : Sign} {m : Nat} {e : Int} {hm : 0 < m}
    (h : Canonical (.finite s m e hm)) :
    Format.binary64.targetExponent (Float.Model.totalExponent m e) = e := by
  obtain ⟨hlt, hlow, hdigits⟩ := h
  show max ((m.log2 : Int) + 1 + e - 53) (-1074) = e
  have hlog : m.log2 ≤ 52 := Nat.lt_succ_iff.mp ((Nat.log2_lt (by omega)).mpr hlt)
  rcases hdigits with hdigits | rfl
  · have hlog' : 52 ≤ m.log2 := (Nat.le_log2 (by omega)).mpr hdigits
    omega
  · omega

/-- Shifting back what was shifted before loses no digit. -/
theorem repeat_shiftRightOne (m k : Nat) :
    k.repeat ExtendedMantissa.shiftRightOne ⟨m * 2 ^ k, false, false⟩ = ⟨m, false, false⟩ := by
  induction k generalizing m with
  | zero => rw [Nat.repeat, Nat.pow_zero, Nat.mul_one]
  | succ k ih =>
    have hdouble : m * 2 ^ (k + 1) = (2 * m) * 2 ^ k := by rw [Nat.pow_succ]; ring
    have heven : (2 * m) % 2 = 0 := Nat.mul_mod_right 2 m
    rw [Nat.repeat, hdouble, ih, ExtendedMantissa.shiftRightOne]
    simp only [heven, Nat.mul_div_cancel_left m Nat.two_pos, bne_self_eq_false, Bool.or_self]

/-- Shifting a mantissa adds its digits to it. -/
theorem log2_mul_two_pow {m : Nat} (hm : 0 < m) (k : Nat) : (m * 2 ^ k).log2 = m.log2 + k := by
  induction k with
  | zero => rw [Nat.pow_zero, Nat.mul_one, Nat.add_zero]
  | succ k ih =>
    have hdouble : m * 2 ^ (k + 1) = 2 * (m * 2 ^ k) := by rw [Nat.pow_succ]; ring
    have hne : m * 2 ^ k ≠ 0 := Nat.ne_of_gt (Nat.mul_pos hm (Nat.two_pow_pos k))
    rw [hdouble, Nat.log2_two_mul hne, ih, Nat.add_assoc]

/-- A number in canonical form is not rounded, also when more digits of its mantissa were computed. The digits
that are added are zeros, so nothing is cut off that could round it up. -/
theorem Canonical.round {s : Sign} {m : Nat} {e : Int} {hm : 0 < m}
    (h : Canonical (.finite s m e hm)) (k : Nat) :
    roundWithAccuracy Format.binary64 s (m * 2 ^ k) (e - k) .exact = .finite s m e hm := by
  have hshift (j : Nat) : shiftToTargetExponent Format.binary64 (m * 2 ^ j) (e - j) .exact =
      (⟨m, false, false⟩, e) := by
    have htotal : Float.Model.totalExponent (m * 2 ^ j) (e - j) = Float.Model.totalExponent m e := by
      unfold Float.Model.totalExponent
      rw [log2_mul_two_pow hm]
      omega
    have hback : (e - (e - j)).toNat = j := by omega
    unfold shiftToTargetExponent shiftToExponent
    simp only [htotal, h.targetExponent, hback]
    refine Prod.ext (repeat_shiftRightOne m j) ?_
    show e - j + j = e
    omega
  have hshift0 := hshift 0
  rw [Nat.pow_zero, Nat.mul_one, Int.natCast_zero, Int.sub_zero] at hshift0
  have hrounded : (ExtendedMantissa.mk m false false).roundedMantissa = m := rfl
  unfold roundWithAccuracy
  simp only [hshift, hrounded, hshift0, dif_neg (Nat.ne_of_gt hm)]

/-- Dividing by one computes the mantissa itself, with one more digit if there is room for it. -/
theorem Canonical.divCore_one {s : Sign} {m : Nat} {e : Int} {hm : 0 < m}
    (h : Canonical (.finite s m e hm)) :
    ∃ k : Nat, divCore Format.binary64 m e (2 ^ 52) (-52) = (m * 2 ^ k, e - k, .exact) := by
  have htarget : max (Float.Model.totalExponent m e - 53) (-1074) = e := h.targetExponent
  have hone : Float.Model.totalExponent (2 ^ 52) (-52) = 1 := rfl
  obtain ⟨k, hk⟩ : ∃ k : Nat,
      max (Float.Model.totalExponent m e - 1 - 53) (-1074) = e - k := by
    rcases Int.le_total (-1074) (Float.Model.totalExponent m e - 1 - 53) with hle | hle
    · exact ⟨1, by omega⟩
    · exact ⟨(e + 1074).toNat, by omega⟩
  have hexponent : min (e - -52) (Format.binary64.targetExponent (Float.Model.totalExponent m e -
      Float.Model.totalExponent (2 ^ 52) (-52))) = e - k := by
    rw [hone]
    show min (e - -52) (max (Float.Model.totalExponent m e - 1 - 53) (-1074)) = e - k
    omega
  have hshift : (e - -52 - (e - k)).toNat = k + 52 := by omega
  have hmantissa : m <<< (k + 52) = m * 2 ^ k * 2 ^ 52 := by
    rw [Nat.shiftLeft_eq, Nat.pow_add, Nat.mul_assoc]
  refine ⟨k, ?_⟩
  unfold divCore
  simp only [hexponent, hshift, hmantissa, Nat.mul_div_cancel _ (Nat.two_pow_pos 52),
    Nat.mul_mod_left]
  rfl

/-- A number in canonical form divided by one is the number, whatever its sign and exponent. -/
theorem Canonical.div_one {u : UnpackedFloat} (h : Canonical u) :
    div Format.binary64 u (.finite .positive (2 ^ 52) (-52) (Nat.two_pow_pos 52)) = u := by
  cases u with
  | notANumber => rfl
  | infinity s => cases s <;> rfl
  | zero s => cases s <;> rfl
  | finite s m e hm =>
    obtain ⟨k, hk⟩ := h.divCore_one
    have hsign : s / .positive = s := by cases s <;> rfl
    unfold div
    simp only [hk, hsign, h.round]

/-- Negative zero is neutral, which positive zero is not: it takes the sign of a negative zero away. -/
theorem negZero_add_unpacked (u : UnpackedFloat) : add Format.binary64 (.zero .negative) u = u := by
  cases u with
  | zero s => cases s <;> rfl
  | _ => rfl

/-! ## Sums of one number -/

theorem pack_unpack_toModel (x : Float) : Float.ofModel (Float.Model.pack x.toModel.unpack) = x :=
  x.ofBits_toBits

/-- A sum that starts at negative zero is the first number. -/
theorem negZero_add (x : Float) : -0.0 + x = x := by
  have hzero : (-0.0 : Float).toModel.unpack = .zero .negative := rfl
  have hadd : -0.0 + x = Float.ofModel (Float.Model.pack x.toModel.unpack) := by
    show Float.ofModel (Float.Model.pack (add Format.binary64 _ _)) = _
    rw [hzero, negZero_add_unpacked]
  rw [hadd, pack_unpack_toModel]

/-- The average of one number is the number. -/
theorem div_one (x : Float) : x / Float.ofNat 1 = x := by
  have hone : (Float.ofNat 1).toModel.unpack =
      .finite .positive (2 ^ 52) (-52) (Nat.two_pow_pos 52) := rfl
  have hcanonical : Canonical x.toModel.unpack := canonical_unpack _
  have hdiv : x / Float.ofNat 1 = Float.ofModel (Float.Model.pack x.toModel.unpack) := by
    show Float.ofModel (Float.Model.pack (div Format.binary64 _ _)) = _
    rw [hone, hcanonical.div_one]
  rw [hdiv, pack_unpack_toModel]

/-- A finite double is written as a number. -/
theorem ofFloat_of_isFinite {x : Float} (h : x.isFinite = true) : Json.ofFloat x = .num (.float x) := by
  simp only [Json.ofFloat, ofFloat?, h, if_true, Option.map_some, Option.getD_some]

variable {n : Number}

/-- The sum of one number is its double. -/
theorem addFloats_singleton (n : Number) : addFloats [n] = n.toFloat :=
  negZero_add n.toFloat

/-- The sum of one finite number is a number. -/
theorem sum_singleton (h : n.toFloat.isFinite = true) : (sum [n]).isNull = false := by
  unfold sum
  split
  · rfl
  · rw [addFloats_singleton, ofFloat_of_isFinite h]
    rfl

/-- The average of one finite number is a number. -/
theorem average?_singleton (h : n.toFloat.isFinite = true) :
    ∃ value, average? [n] = some value ∧ value.isNull = false := by
  refine ⟨_, rfl, ?_⟩
  rw [List.length_singleton, addFloats_singleton, div_one, ofFloat_of_isFinite h]
  rfl

end DocumentQuery.Number
