import DocumentQuery.Proofs.Success
import DocumentQuery.Proofs.Time.Moments
import Mathlib.Data.List.Induction
import Mathlib.Data.List.TakeWhile
import Mathlib.Data.String.Basic

/-!
# The standard chronology is lawful

The reader and the writer that programs run with satisfy what is expected of a chronology
(`Chronology.standard_lawful`). The laws are about whole texts, and the proofs go through a text from its left:
every part is read up to the part that follows it, so each statement is about a part with a rest behind it.
Numbers come with leading zeros (`Instant.readDigits_padded`), then dates, times of day, the fraction, which
may be cut because the digits that are left out are zeros, and the zone, whose first character ends the
fraction.

The law about everything that is read goes the other way (`Instant.valid_of_ofText`). It takes a reader that
has succeeded apart and keeps of every part the range of its number, which is all a moment has to satisfy.
-/

namespace DocumentQuery

open Calendar

namespace Instant

/-! ## Digits -/

theorem foldl_digits (digits : List Char) :
    digits.foldl (fun n c => n * 10 + (c.toNat - '0'.toNat)) 0 = Nat.ofDigitChars 10 digits 0 := by
  simp only [Nat.ofDigitChars_eq_foldl, Nat.mul_comm]

theorem toList_padded (width n : Nat) :
    (padded width n).toList =
      List.replicate (width - (Nat.toDigits 10 n).length) '0' ++ Nat.toDigits 10 n := by
  rw [padded, String.toList_append, String.toList_ofList, Nat.toList_repr, ← String.length_toList,
    Nat.toList_repr]

theorem isDigit_of_mem_padded (width n : Nat) : ∀ c ∈ (padded width n).toList, c.isDigit = true := by
  intro c h
  rw [toList_padded] at h
  rcases List.mem_append.mp h with h | h
  · rw [List.eq_of_mem_replicate h]
    rfl
  · exact Nat.isDigit_of_mem_toDigits (by decide) (by decide) h

/-- A number that does not need more digits is written with exactly as many as asked for. -/
theorem length_padded {width n : Nat} (hw : 0 < width) (h : n < 10 ^ width) :
    (padded width n).toList.length = width := by
  have hlen : (Nat.toDigits 10 n).length ≤ width := (Nat.length_toDigits_le_iff (by decide) hw).mpr h
  rw [toList_padded, List.length_append, List.length_replicate]
  omega

theorem ofDigitChars_padded (width n : Nat) : Nat.ofDigitChars 10 (padded width n).toList 0 = n := by
  rw [toList_padded, Nat.ofDigitChars_append, Nat.ofDigitChars_replicate_zero, Nat.mul_zero,
    Nat.ofDigitChars_toDigits (by decide) (by decide)]

theorem ofDigitChars_lt {digits : List Char} (h : ∀ c ∈ digits, c.isDigit = true) :
    Nat.ofDigitChars 10 digits 0 < 10 ^ digits.length := by
  induction digits using List.reverseRecOn with
  | nil => exact Nat.one_pos
  | append_singleton digits c ih =>
    have hdigits := ih fun c hc => h c (List.mem_append_left _ hc)
    have hc : c.toNat - '0'.toNat < 10 := by
      have hdigit := h c (List.mem_append_right _ (List.mem_singleton_self c))
      rw [Char.isDigit_iff_toNat] at hdigit
      exact Nat.sub_lt_left_of_lt_add hdigit.1 (Nat.lt_succ_of_le hdigit.2)
    rw [Nat.ofDigitChars_append, Nat.ofDigitChars_cons, Nat.ofDigitChars_nil, List.length_append,
      List.length_singleton, Nat.pow_succ]
    omega

theorem readDigits_append {digits : List Char} (hdigits : ∀ c ∈ digits, c.isDigit = true)
    (rest : List Char) :
    readDigits digits.length (digits ++ rest) = .ok (Nat.ofDigitChars 10 digits 0, rest) := by
  have hall : digits.any (!·.isDigit) = false := by
    rw [List.any_eq_false]
    intro c hc
    simp [hdigits c hc]
  simp only [readDigits, List.take_left', List.drop_left', hall, foldl_digits, Bool.false_eq_true,
    if_false, Nat.lt_irrefl]

theorem readDigits_padded {width n : Nat} (hw : 0 < width) (h : n < 10 ^ width) (rest : List Char) :
    readDigits width ((padded width n).toList ++ rest) = .ok (n, rest) := by
  have hread := readDigits_append (isDigit_of_mem_padded width n) rest
  rwa [length_padded hw h, ofDigitChars_padded] at hread

theorem readOne_cons {allowed : List Char} {c : Char} (h : allowed.contains c = true)
    (rest : List Char) : readOne allowed (c :: rest) = .ok rest := by
  rw [readOne, if_pos h]

/-- What is read as a number has no more digits than were asked for. -/
theorem readDigits_lt {count n : Nat} {chars rest : List Char} (h : readDigits count chars = .ok (n, rest)) :
    n < 10 ^ count := by
  simp only [readDigits, foldl_digits] at h
  split at h
  · cases h
  next hall =>
    split at h
    · cases h
    next hlen =>
      cases h
      have hdigits : ∀ c ∈ chars.take count, c.isDigit = true := by
        simpa only [List.any_eq_true, Bool.not_eq_true', not_exists, not_and, Bool.not_eq_false] using hall
      have hcount : (chars.take count).length = count :=
        Nat.le_antisymm (List.length_take_le _ _) (Nat.le_of_not_lt hlen)
      have hlt := ofDigitChars_lt hdigits
      rwa [hcount] at hlt

/-- Every character takes at least one byte. -/
theorem length_le_utf8ByteSize (s : String) : s.toList.length ≤ s.utf8ByteSize := by
  have hlen (chars : List Char) : chars.length ≤ String.utf8Len chars := by
    induction chars with
    | nil => exact Nat.le_refl _
    | cons c chars ih =>
      have hsize := c.utf8Size_pos
      rw [List.length_cons, String.utf8Len_cons]
      omega
  exact (hlen s.toList).trans_eq (String.utf8Len_toList s)

/-! ## Dates -/

/-- The date of a moment is read from its digits. -/
theorem readDate_padded {date : Date} (hvalid : date.isValid = true)
    (hyear : 0 ≤ date.year ∧ date.year ≤ 9999) (rest : List Char) :
    readDate ((padded 4 date.year.toNat).toList ++ '-' :: ((padded 2 date.month).toList ++
      '-' :: ((padded 2 date.day).toList ++ rest))) = .ok (date, rest) := by
  obtain ⟨hmonth, hday⟩ := date.lt_of_isValid hvalid
  have hfour : date.year.toNat < 10 ^ 4 := by omega
  have hdate : (⟨(date.year.toNat : Int), date.month, date.day⟩ : Date) = date := by
    rw [Int.toNat_of_nonneg hyear.1]
  refine Except.bind_eq_ok.mpr ⟨_, readDigits_padded (by decide) hfour _, ?_⟩
  refine Except.bind_eq_ok.mpr ⟨_, readOne_cons rfl _, ?_⟩
  refine Except.bind_eq_ok.mpr ⟨_, readDigits_padded (by decide) hmonth _, ?_⟩
  refine Except.bind_eq_ok.mpr ⟨_, readOne_cons rfl _, ?_⟩
  refine Except.bind_eq_ok.mpr ⟨_, readDigits_padded (by decide) hday _, ?_⟩
  simp only [hdate, hvalid, if_true]
  rfl

theorem valid_of_readDate {chars rest : List Char} {date : Date} (h : readDate chars = .ok (date, rest)) :
    date.isValid = true ∧ 0 ≤ date.year ∧ date.year ≤ 9999 := by
  obtain ⟨⟨year, _⟩, hyear, h⟩ := Except.bind_eq_ok.mp h
  obtain ⟨_, -, h⟩ := Except.bind_eq_ok.mp h
  obtain ⟨⟨month, _⟩, -, h⟩ := Except.bind_eq_ok.mp h
  obtain ⟨_, -, h⟩ := Except.bind_eq_ok.mp h
  obtain ⟨⟨day, _⟩, -, h⟩ := Except.bind_eq_ok.mp h
  have hfour := readDigits_lt hyear
  simp only at h
  split at h
  next hvalid =>
    cases h
    exact ⟨hvalid, by simp only; omega, by simp only; omega⟩
  · cases h

/-! ## Times of day -/

/-- A fraction is read up to the first character that is no digit. -/
theorem readFraction_digits {digits : List Char} (hdigits : ∀ c ∈ digits, c.isDigit = true)
    (hne : digits ≠ []) (hlen : digits.length ≤ 9) {c : Char} (hc : c.isDigit = false)
    (rest : List Char) :
    readFraction ('.' :: (digits ++ c :: rest)) =
      .ok (Nat.ofDigitChars 10 digits 0 * 10 ^ (9 - digits.length), c :: rest) := by
  have htake : (digits ++ c :: rest).takeWhile Char.isDigit = digits := by
    rw [List.takeWhile_append_of_pos hdigits, List.takeWhile_cons_of_neg (by simp [hc]),
      List.append_nil]
  have hdrop : (digits ++ c :: rest).dropWhile Char.isDigit = c :: rest := by
    rw [List.dropWhile_append_of_pos hdigits, List.dropWhile_cons_of_neg (by simp [hc])]
  have hempty : digits.isEmpty = false := List.isEmpty_eq_false_iff.mpr hne
  simp only [readFraction, htake, hdrop, hempty, List.take_of_length_le hlen, foldl_digits,
    Bool.false_eq_true, if_false]
  rfl

/-- A number of `width` digits is read as a fraction that ends with zeros. -/
theorem readFraction_padded {width n : Nat} (hw : 0 < width) (hw9 : width ≤ 9) (h : n < 10 ^ width)
    {c : Char} (hc : c.isDigit = false) (rest : List Char) :
    readFraction (("." ++ padded width n).toList ++ c :: rest) = .ok (n * 10 ^ (9 - width), c :: rest) := by
  have hlen := length_padded hw h
  have hne : (padded width n).toList ≠ [] := List.ne_nil_of_length_pos (by rwa [hlen])
  have hread := readFraction_digits (isDigit_of_mem_padded width n) hne (hlen.trans_le hw9) hc rest
  rw [hlen, ofDigitChars_padded] at hread
  have hdot : ".".toList = ['.'] := rfl
  rw [String.toList_append, hdot]
  exact hread

/-- The fraction of a moment is read as its nanoseconds: the digits that it does not have are zeros. -/
theorem readFraction_fractionText {m : Moment} (h : m.Valid) {c : Char} (hc : c.isDigit = false) (hdot : c ≠ '.')
    (rest : List Char) : readFraction (m.fractionText.toList ++ c :: rest) = .ok (m.nanos, c :: rest) := by
  have hfraction := h.fraction
  unfold Moment.fractionText Moment.nanos
  split
  next hzero =>
    rw [hzero, Nat.pow_zero, Nat.lt_one_iff] at hfraction
    rw [hfraction, Nat.zero_mul]
    unfold readFraction
    split
    next heq => exact absurd (List.cons.inj heq).1 hdot
    · rfl
  next hpos => exact readFraction_padded (Nat.pos_of_ne_zero hpos) h.digits hfraction hc rest

theorem readFraction_lt {chars rest : List Char} {nanos : Nat}
    (h : readFraction chars = .ok (nanos, rest)) : nanos < secondNanos := by
  unfold readFraction at h
  split at h
  next chars =>
    simp only [foldl_digits] at h
    split at h
    · cases h
    · cases h
      -- the digits that are missing of nine are zeros
      have hdigits : ∀ c ∈ (chars.takeWhile Char.isDigit).take 9, c.isDigit = true := fun c hc =>
        List.mem_takeWhile_imp (List.mem_of_mem_take hc)
      have hlen : ((chars.takeWhile Char.isDigit).take 9).length ≤ 9 := List.length_take_le _ _
      have hlt := Nat.mul_lt_mul_of_pos_right (ofDigitChars_lt hdigits)
        (Nat.pow_pos (Nat.succ_pos 9) :
          0 < 10 ^ (9 - ((chars.takeWhile Char.isDigit).take 9).length))
      rw [← Nat.pow_add, Nat.add_sub_cancel' hlen] at hlt
      exact hlt
  · cases h
    decide

/-- The time of day of a moment is read; its second 60 is the second before it, which is longer than others. -/
theorem readTime_padded {m : Moment} (h : m.Valid) {c : Char} (hc : c.isDigit = false) (hdot : c ≠ '.')
    (rest : List Char) :
    readTime ((padded 2 m.hour).toList ++ ':' :: ((padded 2 m.minute).toList ++ ':' ::
      ((padded 2 m.second).toList ++ (m.fractionText.toList ++ c :: rest)))) =
      .ok ((m.hour * 3600 + m.minute * 60 + min m.second 59, m.instant.nanos), c :: rest) := by
  have hhour := h.hour
  have hminute := h.minute
  have hsecond := h.second
  refine Except.bind_eq_ok.mpr ⟨_, readDigits_padded (by decide) (by omega) _, ?_⟩
  refine Except.bind_eq_ok.mpr ⟨_, readOne_cons rfl _, ?_⟩
  refine Except.bind_eq_ok.mpr ⟨_, readDigits_padded (by decide) (by omega) _, ?_⟩
  refine Except.bind_eq_ok.mpr ⟨_, readOne_cons rfl _, ?_⟩
  refine Except.bind_eq_ok.mpr ⟨_, readDigits_padded (by decide) (by omega) _, ?_⟩
  refine Except.bind_eq_ok.mpr ⟨_, readFraction_fractionText h hc hdot rest, ?_⟩
  have hrange : ¬(24 ≤ m.hour ∨ 60 ≤ m.minute ∨ 60 < m.second) := by omega
  simp only [if_neg hrange, Moment.instant]
  split
  next hleap => rw [hleap, Nat.add_comm secondNanos]; rfl
  next hplain => rw [Nat.min_eq_left (by omega)]; rfl

/-- What is read as a time of day is a time of the clock, with a fraction of less than a second. -/
theorem clock_of_readTime {chars rest : List Char} {start nanos : Nat}
    (h : readTime chars = .ok ((start, nanos), rest)) : ∃ hour minute second fraction,
      hour < 24 ∧ minute < 60 ∧ second ≤ 60 ∧ fraction < secondNanos ∧
      start = hour * 3600 + minute * 60 + min second 59 ∧
      nanos = fraction + if second = 60 then secondNanos else 0 := by
  obtain ⟨⟨hour, _⟩, -, h⟩ := Except.bind_eq_ok.mp h
  obtain ⟨_, -, h⟩ := Except.bind_eq_ok.mp h
  obtain ⟨⟨minute, _⟩, -, h⟩ := Except.bind_eq_ok.mp h
  obtain ⟨_, -, h⟩ := Except.bind_eq_ok.mp h
  obtain ⟨⟨second, _⟩, -, h⟩ := Except.bind_eq_ok.mp h
  obtain ⟨⟨fraction, _⟩, hfraction, h⟩ := Except.bind_eq_ok.mp h
  have hlt := readFraction_lt hfraction
  simp only at h
  split at h
  · cases h
  next hrange =>
    refine ⟨hour, minute, second, fraction, by omega, by omega, by omega, hlt, ?_⟩
    split at h
    next hleap =>
      cases h
      rw [if_pos hleap]
      omega
    next hplain =>
      cases h
      rw [if_neg hplain]
      omega

/-! ## Zones -/

/-- Two digits are read as one of the numbers of an offset. -/
theorem readPair_padded {n : Nat} (h : n < 10 ^ 2) (rest : List Char) :
    readPair ((padded 2 n).toList ++ rest) = .ok (n, rest) := by
  have hlen := length_padded (by decide) h
  have hsize : ¬(String.ofList (((padded 2 n).toList ++ rest).take 2)).utf8ByteSize < 2 := by
    have hbytes := length_le_utf8ByteSize (padded 2 n)
    rw [List.take_left' hlen, String.ofList_toList]
    omega
  rw [readPair, if_neg hsize]
  exact readDigits_padded (by decide) h rest

/-- Hours and minutes of an offset are read as seconds. -/
theorem readOffset_padded {minutes : Nat} (h : minutes < 24 * 60) (rest : List Char) :
    readOffset ((padded 2 (minutes / 60)).toList ++ ':' :: ((padded 2 (minutes % 60)).toList ++ rest)) =
      .ok (minutes * 60, rest) := by
  refine Except.bind_eq_ok.mpr ⟨_, readPair_padded (by omega) _, ?_⟩
  refine Except.bind_eq_ok.mpr ⟨_, readOne_cons rfl _, ?_⟩
  refine Except.bind_eq_ok.mpr ⟨_, readPair_padded (by omega) _, ?_⟩
  have hminutes : ¬60 ≤ minutes % 60 := by omega
  have htotal : minutes / 60 * 3600 + minutes % 60 * 60 = minutes * 60 := by omega
  simp only [if_neg hminutes, htotal]
  rfl

theorem readZone_utc (rest : List Char) : readZone ('Z' :: rest) = .ok (0, rest) := by
  rw [readZone, if_pos (by decide)]

theorem readZone_plus {chars rest : List Char} {offset : Nat} (h : readOffset chars = .ok (offset, rest)) :
    readZone ('+' :: chars) = .ok (offset, rest) := by
  rw [readZone, if_neg (by decide), if_pos (by decide), h]
  rfl

theorem readZone_minus {chars rest : List Char} {offset : Nat} (h : readOffset chars = .ok (offset, rest)) :
    readZone ('-' :: chars) = .ok (-offset, rest) := by
  rw [readZone, if_neg (by decide), if_neg (by decide), if_pos (by decide), h]
  rfl

/-- The zone of a moment is read in seconds. Its first character is neither a digit nor a point, so it ends
the fraction before it. -/
theorem readZone_zoneText {m : Moment} (h : m.Valid) : ∃ c rest, m.zoneText.toList = c :: rest ∧
    c.isDigit = false ∧ c ≠ '.' ∧ readZone (c :: rest) = .ok (m.zone * 60, []) := by
  have hread := readOffset_padded h.zone []
  rw [List.append_nil] at hread
  have hminus : "-".toList = ['-'] := rfl
  have hplus : "+".toList = ['+'] := rfl
  have hcolon : ":".toList = [':'] := rfl
  unfold Moment.zoneText
  split
  next hzero =>
    refine ⟨'Z', [], rfl, rfl, by decide, ?_⟩
    rw [readZone_utc, hzero, Int.zero_mul]
  · split
    next hbehind =>
      have hseconds : -((m.zone.natAbs * 60 : Nat) : Int) = m.zone * 60 := by omega
      simp only [String.toList_append, hminus, hcolon, List.append_assoc, List.singleton_append]
      refine ⟨'-', _, rfl, rfl, by decide, ?_⟩
      rw [← hseconds]
      exact readZone_minus hread
    next hahead =>
      have hseconds : ((m.zone.natAbs * 60 : Nat) : Int) = m.zone * 60 := by omega
      simp only [String.toList_append, hplus, hcolon, List.append_assoc, List.singleton_append]
      refine ⟨'+', _, rfl, rfl, by decide, ?_⟩
      rw [← hseconds]
      exact readZone_plus hread

/-- An offset is a number of whole minutes. -/
theorem readOffset_mod {chars rest : List Char} {offset : Nat}
    (h : readOffset chars = .ok (offset, rest)) : offset % 60 = 0 := by
  obtain ⟨⟨hours, _⟩, -, h⟩ := Except.bind_eq_ok.mp h
  obtain ⟨_, -, h⟩ := Except.bind_eq_ok.mp h
  obtain ⟨⟨minutes, _⟩, -, h⟩ := Except.bind_eq_ok.mp h
  simp only at h
  split at h
  · cases h
  · cases h
    omega

theorem readZone_mod {chars rest : List Char} {offset : Int}
    (h : readZone chars = .ok (offset, rest)) : offset % 60 = 0 := by
  unfold readZone at h
  split at h
  · cases h
  · split at h
    · cases h
      rfl
    · split at h
      · obtain ⟨⟨minutes, _⟩, hoffset, h⟩ := Except.bind_eq_ok.mp h
        cases h
        have := readOffset_mod hoffset
        omega
      · split at h
        · obtain ⟨⟨minutes, _⟩, hoffset, h⟩ := Except.bind_eq_ok.mp h
          cases h
          have := readOffset_mod hoffset
          omega
        · cases h

/-! ## Instants -/

/-- The characters of the text of a moment. -/
theorem toList_momentText (m : Moment) : m.text.toList =
    (padded 4 m.date.year.toNat).toList ++ '-' :: ((padded 2 m.date.month).toList ++ '-' ::
      ((padded 2 m.date.day).toList ++ 'T' :: ((padded 2 m.hour).toList ++ ':' ::
        ((padded 2 m.minute).toList ++ ':' :: ((padded 2 m.second).toList ++
          (m.fractionText.toList ++ m.zoneText.toList)))))) := by
  have hdash : "-".toList = ['-'] := rfl
  have hcolon : ":".toList = [':'] := rfl
  have hT : "T".toList = ['T'] := rfl
  simp only [Moment.text, String.toList_append, hdash, hcolon, hT, List.append_assoc, List.cons_append,
    List.nil_append]

/-- A moment is read from its text. -/
theorem ofText_momentText {m : Moment} (h : m.Valid) : ofText m.text = .ok m.instant := by
  obtain ⟨c, rest, hzone, hc, hdot, hread⟩ := readZone_zoneText h
  obtain ⟨hmonth, hday⟩ := m.date.lt_of_isValid h.date
  have hsize : ¬m.text.utf8ByteSize < 19 := by
    have hyear := h.year
    have hhour := h.hour
    have hminute := h.minute
    have hsecond := h.second
    have hlen := length_le_utf8ByteSize m.text
    rw [toList_momentText] at hlen
    simp only [List.length_append, List.length_cons] at hlen
    rw [length_padded (by decide) (by omega), length_padded (by decide) (by omega),
      length_padded (by decide) (by omega), length_padded (by decide) (by omega),
      length_padded (by decide) (by omega), length_padded (by decide) (by omega)] at hlen
    omega
  have hoffset : ¬daySeconds ≤ (m.zone * 60).natAbs := by
    have hlt := h.zone
    simp only [daySeconds]
    omega
  unfold ofText
  simp only [if_neg hsize]
  rw [toList_momentText, hzone]
  refine Except.bind_eq_ok.mpr ⟨_, readDate_padded h.date h.year _, ?_⟩
  refine Except.bind_eq_ok.mpr ⟨_, readOne_cons rfl _, ?_⟩
  refine Except.bind_eq_ok.mpr ⟨_, readTime_padded h hc hdot rest, ?_⟩
  refine Except.bind_eq_ok.mpr ⟨_, hread, ?_⟩
  simp only [List.isEmpty_nil, Bool.not_true, Bool.false_eq_true, if_false, if_neg hoffset]
  rfl

/-- Whatever is read is the instant of a moment. -/
theorem valid_of_ofText {text : String} {t : Instant} (h : ofText text = .ok t) :
    ∃ m : Moment, m.Valid ∧ m.instant = t := by
  unfold ofText at h
  simp only at h
  split at h
  · cases h
  · obtain ⟨⟨date, _⟩, hdate, h⟩ := Except.bind_eq_ok.mp h
    obtain ⟨_, -, h⟩ := Except.bind_eq_ok.mp h
    obtain ⟨⟨⟨start, nanos⟩, _⟩, htime, h⟩ := Except.bind_eq_ok.mp h
    obtain ⟨⟨offset, _⟩, hzone, h⟩ := Except.bind_eq_ok.mp h
    simp only at h
    split at h
    · cases h
    · split at h
      · cases h
      next hoffset =>
        cases h
        obtain ⟨hour, minute, second, fraction, hhour, hminute, hsecond, hfraction, rfl, rfl⟩ :=
          clock_of_readTime htime
        obtain ⟨hvalid, hyear⟩ := valid_of_readDate hdate
        have hmod := readZone_mod hzone
        rw [daySeconds] at hoffset
        have hminutes : (offset / 60).natAbs < 24 * 60 := by omega
        refine ⟨⟨date, hour, minute, second, 9, fraction, offset / 60⟩,
          ⟨hvalid, hyear, hhour, hminute, hsecond, Nat.le_refl 9, hfraction, hminutes⟩, ?_⟩
        have hback : offset / 60 * 60 = offset := by omega
        simp only [Moment.instant, Moment.nanos, hback, Nat.sub_self, Nat.pow_zero, Nat.mul_one]

/-- The fraction of a second is written with the fewest digits that give it exactly. -/
theorem fractionText_eq {nanos : Nat} (h : nanos < secondNanos) : fractionText nanos =
    if fractionDigits nanos = 0 then ""
    else "." ++ padded (fractionDigits nanos) (nanos / 10 ^ (9 - fractionDigits nanos)) := by
  have hwhole : nanos % 10 ^ 9 = nanos := Nat.mod_eq_of_lt h
  have hmilli : 10 ^ 6 = 1000000 := rfl
  have hmicro : 10 ^ 3 = 1000 := rfl
  rw [fractionDigits, hwhole, hmilli, hmicro, fractionText]
  by_cases h0 : nanos = 0
  · rw [if_pos h0, if_pos h0, if_pos rfl]
  by_cases h3 : nanos % 1000000 = 0
  · rw [if_neg h0, if_pos h3, if_neg h0, if_pos h3]
    rfl
  by_cases h6 : nanos % 1000 = 0
  · rw [if_neg h0, if_neg h3, if_pos h6, if_neg h0, if_neg h3, if_pos h6]
    rfl
  · rw [if_neg h0, if_neg h3, if_neg h6, if_neg h0, if_neg h3, if_neg h6, Nat.sub_self, Nat.pow_zero,
      Nat.div_one]
    rfl

/-- What is written of an instant in a year of four digits is the moment that is shown. -/
theorem text_eq_momentText {t : Instant} (hyear : 0 ≤ t.year ∧ t.year ≤ 9999) : t.text = t.moment.text := by
  have htext : yearText t.year = padded 4 t.year.toNat := if_pos hyear
  have hfraction := fractionText_eq (Nat.mod_lt t.nanos (by decide : secondNanos > 0))
  show yearText t.year ++ _ ++ _ ++ _ ++ _ ++ _ ++ _ ++ _ ++ _ ++ _ ++ _ ++ fractionText (t.nanos % secondNanos)
    ++ "Z" = _
  rw [htext, hfraction]
  rfl

theorem ofSeconds?_eq_some {seconds : Int} {nanos : Nat} {t : Instant} :
    ofSeconds? seconds nanos = some t ↔
      firstSecond ≤ seconds ∧ seconds < endSecond ∧ nanos < nanosWithin seconds ∧ t = ⟨seconds, nanos⟩ := by
  simp only [ofSeconds?]
  split
  next h => exact ⟨fun ht => ⟨h.1, h.2.1, h.2.2, (Option.some.inj ht).symm⟩, fun ht => ht.2.2.2 ▸ rfl⟩
  next h => exact ⟨fun ht => (nomatch ht), fun ht => absurd ⟨ht.1, ht.2.1, ht.2.2.1⟩ h⟩

end Instant

/-! ## The laws -/

/-- The chronology programs run with is what is expected of one. -/
theorem Chronology.standard_lawful : Chronology.standard.Lawful where
  read_text m h := Except.mapError_eq_ok.mpr (Instant.ofText_momentText h)
  valid_of_read text t h := Instant.valid_of_ofText (Except.mapError_eq_ok.mp h)
  write_eq t _ hyear := Instant.text_eq_momentText hyear
  ofSeconds?_eq_some seconds nanos hfirst hend hnanos :=
    Instant.ofSeconds?_eq_some.mpr
      ⟨hfirst, hend, Instant.regular_of_lt (t := ⟨seconds, nanos⟩) hnanos, rfl⟩
  regular_of_ofSeconds? seconds nanos t h := by
    obtain ⟨-, -, hnanos, rfl⟩ := Instant.ofSeconds?_eq_some.mp h
    exact hnanos
  ofMillis?_isSome millis hfirst hend := by
    have hnanos : (millis % 1000).toNat * 1000000 < Instant.secondNanos := by
      rw [Instant.secondNanos]
      omega
    refine Option.isSome_iff_exists.mpr ⟨_, Instant.ofSeconds?_eq_some.mpr ⟨?_, ?_, ?_, rfl⟩⟩
    · omega
    · omega
    · exact Instant.regular_of_lt (t := ⟨millis / 1000, _⟩) hnanos
  nanos_of_ofMillis? millis t h := by
    obtain ⟨-, -, -, rfl⟩ := Instant.ofSeconds?_eq_some.mp h
    simp only [Instant.secondNanos]
    omega

end DocumentQuery
