import DocumentQuery.Instance.Convert
import DocumentQuery.Instance.Graph
import DocumentQuery.Proofs.Time.Text

/-!
# Points in time between documents and instances

A point in time is stored in one of three forms and shown in one of them, as a text in UTC. In a year of four
digits what is shown is what was stored, whichever form and offset it was stored with
(`Instant.converts_rendered`). This holds for every chronology that is lawful: the laws say which instant the
text of a moment is read as and which moment is written of an instant, and the two meet because an instant and
what the clocks of UTC show of it determine each other. Where the year has more digits, or a sign, there is no
law for what is written, and none is needed.

A text gives an instant only as the instant of a moment, and a count of seconds only with nanoseconds that its
second has. So whatever is stored, the instant is regular (`Json.toInstant_regular`), which is all that is
needed of it to be written and read back.

A count of milliseconds is cut into whole seconds and the nanoseconds that follow them, before 1970 as well,
where the seconds are negative and the nanoseconds are not.
-/

namespace DocumentQuery

namespace Instant

theorem firstSecond_eq : firstSecond = -8334601228800 := by
  decide

theorem endSecond_eq : endSecond = 8210266876800 := by
  decide

/-- The seconds of a year of four digits can be represented. -/
theorem within_of_year {t : Instant} (h : 0 ≤ t.year ∧ t.year ≤ 9999) :
    firstSecond ≤ t.seconds ∧ t.seconds < endSecond := by
  have hlow := Calendar.daysBeforeYear_yearOfDay_le t.day
  have hhigh := Calendar.lt_daysBeforeYear_yearOfDay_succ t.day
  have hseconds := t.day_mul_add_timeOfDay
  have htime := t.timeOfDay_lt
  have hepoch : Calendar.epochDay = 719528 := by decide
  have hday : daySeconds = 86400 := rfl
  rw [hepoch, hday] at hseconds
  rw [firstSecond_eq, endSecond_eq]
  simp only [year, Calendar.daysBeforeYear] at h hlow hhigh
  omega

/-- The instant that a count of milliseconds stands for, in whole seconds and the nanoseconds after them. -/
def atMillis (millis : Int) : Instant :=
  ⟨millis / 1000, (millis % 1000).toNat * 1000000⟩

theorem nanos_atMillis_lt (millis : Int) : (atMillis millis).nanos < secondNanos := by
  simp only [atMillis, secondNanos]
  omega

/-- Milliseconds in years of four digits fit a signed word. -/
theorem lt_signedBound {millis : Int} (h : 0 ≤ (atMillis millis).year ∧ (atMillis millis).year ≤ 9999) :
    millis < Number.signedBound := by
  have hend := (within_of_year h).2
  rw [endSecond_eq] at hend
  simp only [atMillis] at hend
  simp only [Number.signedBound]
  omega

end Instant

section

variable [c : Chronology]

namespace Json

variable {t : Instant}

theorem toInstant_num_eq_ok {n : Number} :
    (Json.num n).toInstant = .ok t ↔ n.toSigned?.bind Chronology.ofMillis? = some t := by
  cases h : n.toSigned?.bind Chronology.ofMillis? <;> simp [toInstant, h, mismatch]

theorem toInstant_obj_eq_ok {members : List (String × Json)} :
    (Json.obj members).toInstant = .ok t ↔ instantOfParts? members = some t := by
  cases h : instantOfParts? members <;> simp [toInstant, h, mismatch]

/-- A stored value denotes a regular instant, in whichever of the three forms it is. -/
theorem toInstant_regular (laws : c.Lawful) {raw : Json} (h : raw.toInstant = .ok t) : t.Regular := by
  cases raw with
  | str text =>
    obtain ⟨m, hvalid, rfl⟩ := laws.valid_of_read text t (Except.mapError_eq_ok.mp h)
    exact hvalid.regular_instant
  | num n =>
    obtain ⟨millis, -, hmillis⟩ := Option.bind_eq_some_iff.mp (toInstant_num_eq_ok.mp h)
    exact Instant.regular_of_lt (laws.nanos_of_ofMillis? millis t hmillis).1
  | obj members =>
    obtain ⟨seconds, -, hparts⟩ := Option.bind_eq_some_iff.mp (toInstant_obj_eq_ok.mp h)
    simp only at hparts
    split at hparts
    · exact laws.regular_of_ofSeconds? _ _ t hparts
    · cases hparts
  | null => cases h
  | bool _ => cases h
  | arr _ => cases h

end Json

namespace Instant

/-- Milliseconds are converted to the instant they stand for: no other instant outside leap seconds is as many
nanoseconds away from the start of 1970. -/
theorem toInstant_millis (laws : c.Lawful) {millis : Int}
    (h : 0 ≤ (atMillis millis).year ∧ (atMillis millis).year ≤ 9999) :
    (Json.num (.int millis)).toInstant = .ok (atMillis millis) := by
  obtain ⟨hfirst, hend⟩ := within_of_year h
  simp only [atMillis] at hfirst hend
  have hsigned : (Number.int millis).toSigned? = some millis := if_pos (lt_signedBound h)
  obtain ⟨t, ht⟩ := Option.isSome_iff_exists.mp
    (laws.ofMillis?_isSome millis (by omega) (by omega))
  obtain ⟨hnanos, htotal⟩ := laws.nanos_of_ofMillis? millis t ht
  rw [secondNanos] at hnanos htotal
  have hseconds : t.seconds = millis / 1000 := by omega
  have hrest : t.nanos = (millis % 1000).toNat * 1000000 := by omega
  have heq : t = atMillis millis := congrArg₂ Instant.mk hseconds hrest
  rw [Json.toInstant_num_eq_ok, hsigned, ← heq]
  exact ht

/-- So are the seconds of them, with the nanoseconds that follow. -/
theorem toInstant_parts (laws : c.Lawful) {millis : Int}
    (h : 0 ≤ (atMillis millis).year ∧ (atMillis millis).year ≤ 9999) :
    (Json.obj [("nanos", .num (.int (millis % 1000 * 1000000))),
      ("seconds", .num (.int (millis / 1000)))]).toInstant = .ok (atMillis millis) := by
  obtain ⟨hfirst, hend⟩ := within_of_year h
  have hnanos := nanos_atMillis_lt millis
  have hsigned : (Number.int (millis / 1000)).toSigned? = some (millis / 1000) := by
    have hlt := lt_signedBound h
    refine if_pos ?_
    simp only [Number.signedBound] at hlt ⊢
    omega
  have hcount : (Number.int (millis % 1000 * 1000000)).toCount? = some (atMillis millis).nanos := by
    rw [Number.toCount?, if_pos (by omega)]
    show some (millis % 1000 * 1000000).toNat = some ((millis % 1000).toNat * 1000000)
    congr 1
    omega
  have hword : (atMillis millis).nanos < 4294967296 := hnanos.trans (by decide)
  rw [Json.toInstant_obj_eq_ok]
  show ((Number.int (millis / 1000)).toSigned?.bind fun seconds =>
    if (Number.int (millis % 1000 * 1000000)).toCount?.getD 0 < 4294967296 then
      c.ofSeconds? seconds ((Number.int (millis % 1000 * 1000000)).toCount?.getD 0) else none) = _
  rw [hsigned, hcount, Option.bind_some, Option.getD_some, if_pos hword]
  exact laws.ofSeconds?_eq_some _ _ hfirst hend hnanos

/-- Points in time survive being shown: the text of an instant in a year of four digits is converted to this
instant, whatever stored value the instant came from. A count of milliseconds in these years denotes the same
instant as the object of its whole seconds and the nanoseconds after them. All of this is said of any library
for points in time that keeps the laws; that the year has four digits is needed because no law says what is
written in other years. -/
theorem converts_rendered (laws : c.Lawful) (g : Graph) :
    (∀ raw t, Json.toInstant raw = .ok t → 0 ≤ t.year ∧ t.year ≤ 9999 →
      (g.render (.timestamp t)).toInstant = .ok t) ∧
    ∀ millis : Int, 0 ≤ (atMillis millis).year ∧ (atMillis millis).year ≤ 9999 →
      (Json.num (.int millis)).toInstant = .ok (atMillis millis) ∧
        (Json.obj [("nanos", .num (.int (millis % 1000 * 1000000))),
          ("seconds", .num (.int (millis / 1000)))]).toInstant = .ok (atMillis millis) := by
  refine ⟨fun raw t hraw hyear => ?_,
    fun millis hyear => ⟨toInstant_millis laws hyear, toInstant_parts laws hyear⟩⟩
  have hregular := Json.toInstant_regular laws hraw
  have hread : c.read (c.write t) = .ok t := by
    rw [laws.write_eq t hregular hyear, laws.read_text t.moment (valid_moment hyear), hregular.instant_moment]
  show (Json.str (c.write t)).toInstant = .ok t
  rw [Json.toInstant, hread]
  rfl

end Instant

end

/-- With the chronology that programs run with: the leap second at the end of 1998, written in another zone,
and the millisecond before 1970. -/
theorem Instant.converts_rendered_leapSecond :
    ((Json.str "1998-12-31T17:59:60.5-06:00").toInstant = .ok ⟨915148799, 1500000000⟩ ∧
      (Graph.empty.render (.timestamp ⟨915148799, 1500000000⟩)).toInstant =
        .ok ⟨915148799, 1500000000⟩) ∧
    (Json.num (.int (-1))).toInstant = .ok ⟨-1, 999000000⟩ ∧
    (Json.obj [("nanos", .num (.int 999000000)), ("seconds", .num (.int (-1)))]).toInstant =
      .ok ⟨-1, 999000000⟩ := by
  have hread : (Json.str "1998-12-31T17:59:60.5-06:00").toInstant = .ok ⟨915148799, 1500000000⟩ := rfl
  obtain ⟨hshown, hmillis⟩ := Instant.converts_rendered Chronology.standard_lawful Graph.empty
  exact ⟨⟨hread, hshown _ _ hread (by decide)⟩, hmillis (-1) (by decide)⟩

end DocumentQuery
