import DocumentQuery.Proofs.Compile.Steps
import DocumentQuery.Proofs.Plan.Window

/-!
# Paging that is added up

A template has one count of skipped rows and one of kept rows, however often a pipeline pages. Its window
(`Template.bindWindow`) does to a list what the paging operators do one after the other: skipping `k` rows
drops the first `k` of what the window kept before (`Progress.skip_window`), and so on. Counts that are
added add up to a count, or the pipeline is not compiled, so nothing is lost in between.

The window is that of a template for given parameters, since the first count of a page may be a parameter;
counts that are added to it must be known, and a parameter is known only when it is bound. The lemmas
therefore go backwards: from the window after an operator the window before it is obtained, together with the
count the operator was given.

## Main definitions

* `Template.bindWindow` — the window of a template for given parameters
-/

namespace DocumentQuery

variable {bindings : Bindings}

/-! ## Counts -/

namespace Operand

variable {operand : Operand} {operator purpose : String} {n : Nat}

/-- A count that is known is the count the operand is bound to. -/
theorem bindCount_of_constantCount (h : operand.constantCount operator = .ok n) :
    operand.bindCount bindings purpose = .ok n := by
  unfold constantCount at h
  split at h
  next v =>
    cases hv : v.toCount? with
    | none =>
      rw [hv] at h
      cases h
    | some count =>
      rw [hv] at h
      cases h
      have hcount : (Json.num v).toCount? = some n := hv
      refine Except.bind_eq_ok.mpr ⟨.num v, rfl, ?_⟩
      rw [hcount]
      rfl
  · cases h

/-- A count that was computed is known. -/
theorem constantCount_ofCount (operator : String) (n : Nat) :
    (ofCount n).constantCount operator = .ok n := by
  have hcount : (Number.ofNat n).toCount? = some n := by
    simp [Number.ofNat, Number.toCount?]
  simp only [ofCount, Json.count, constantCount, hcount]

end Operand

/-! ## Windows -/

namespace Window

variable {skip limit last : Option Nat} {ds : List Document}

/-- A window keeps the last rows first, then drops those it skips, and then takes as many as it keeps. -/
theorem apply_ofCounts (skip limit last : Option Nat) (ds : List Document) :
    (ofCounts skip limit last).apply ds =
      applyLimit limit ((applyTail last ds).drop (skip.getD 0)) :=
  rfl

/-- A window that cuts nothing. -/
theorem apply_ofCounts_none (ds : List Document) : (ofCounts none none none).apply ds = ds :=
  rfl

/-- Dropping more of what a window keeps. -/
theorem drop_apply_ofCounts (k : Nat) :
    ((ofCounts skip limit none).apply ds).drop k =
      (ofCounts (some (skip.getD 0 + k)) (limit.map (· - k)) none).apply ds := by
  rw [apply_ofCounts, apply_ofCounts]
  cases limit with
  | none => exact List.drop_drop
  | some n =>
    simp only [applyLimit, applyTail, Option.map_some, Option.getD_some, List.drop_take, List.drop_drop]

/-- Taking less of what a window keeps. -/
theorem take_apply_ofCounts (n : Nat) :
    ((ofCounts skip limit none).apply ds).take n =
      (ofCounts skip (some ((limit.map (min · n)).getD n)) none).apply ds := by
  rw [apply_ofCounts, apply_ofCounts]
  cases limit with
  | none => rfl
  | some k => simp only [applyLimit, Option.map_some, Option.getD_some, List.take_take, Nat.min_comm]

end Window

/-- The window of a template for given parameters. -/
def Template.bindWindow (bindings : Bindings) (t : Template) : Except QueryError Window := do
  let limit ← Operand.bindCount? bindings "limit" t.limit
  let limitToLast ← Operand.bindCount? bindings "limit_to_last" t.limitToLast
  let skip ← Operand.bindCount? bindings "skip" t.skip
  return Window.ofCounts skip limit limitToLast

/-- Without a tail, a window has two counts: the rows it skips and the rows it keeps after them. -/
theorem Template.bindWindow_eq_ok {t : Template} (hlast : t.limitToLast = none) {w : Window} :
    t.bindWindow bindings = .ok w ↔ ∃ skip limit,
      Operand.bindCount? bindings "skip" t.skip = .ok skip ∧
      Operand.bindCount? bindings "limit" t.limit = .ok limit ∧
      w = Window.ofCounts skip limit none := by
  have hnone : Operand.bindCount? bindings "limit_to_last" t.limitToLast = .ok none := by
    rw [hlast]
    rfl
  simp only [bindWindow, hnone, Except.bind_eq_ok, pure, Except.pure, Except.ok.injEq]
  constructor
  · rintro ⟨limit, hlimit, _, rfl, skip, hskip, rfl⟩
    exact ⟨skip, limit, hskip, hlimit, rfl⟩
  · rintro ⟨skip, limit, hskip, hlimit, rfl⟩
    exact ⟨limit, hlimit, none, rfl, skip, hskip, rfl⟩

namespace Operand

/-- A count that is there is bound to its number. -/
theorem bindCount?_some {operand : Operand} {purpose : String} {n : Nat}
    (h : operand.bindCount bindings purpose = .ok n) :
    bindCount? bindings purpose (some operand) = .ok (some n) := by
  rw [bindCount?, h]
  rfl

theorem bindCount?_ofCount (purpose : String) (n : Nat) :
    bindCount? bindings purpose (some (ofCount n)) = .ok (some n) :=
  bindCount?_some (bindCount_of_constantCount (constantCount_ofCount "Take" n))

theorem bindCount?_eq_some {operand : Operand} {purpose : String} {count : Option Nat}
    (h : bindCount? bindings purpose (some operand) = .ok count) :
    ∃ n, operand.bindCount bindings purpose = .ok n ∧ count = some n := by
  obtain ⟨n, hn, rfl⟩ := Except.map_eq_ok.mp h
  exact ⟨n, hn, rfl⟩

end Operand

/-! ## Paging operators -/

/-- The rows that are skipped already are bound to their number. -/
theorem Template.bindCount?_of_skipped (t : Template) (bindings : Bindings) {prior : Nat}
    (h : t.skipped = .ok prior) : ∃ skip,
      Operand.bindCount? bindings "skip" t.skip = .ok skip ∧ skip.getD 0 = prior := by
  unfold skipped at h
  split at h
  next hskip =>
    cases h
    exact ⟨none, by rw [hskip]; rfl, rfl⟩
  next operand hskip =>
    rw [hskip]
    exact ⟨some prior, Operand.bindCount?_some (Operand.bindCount_of_constantCount h), rfl⟩

namespace Progress

open Operand (bindCount?_ofCount bindCount?_some bindCount_of_constantCount)

variable {p p' : Progress} {count : Operand} {w' : Window}

/-- The window of a page is that of its two counts. -/
theorem bindWindow_page {skip limit : Option Operand} (hlast : p.template.limitToLast = none)
    (hw' : (p.page skip limit).template.bindWindow bindings = .ok w') :
    ∃ skip' limit', Operand.bindCount? bindings "skip" skip = .ok skip' ∧
      Operand.bindCount? bindings "limit" limit = .ok limit' ∧
      w' = Window.ofCounts skip' limit' none :=
  (Template.bindWindow_eq_ok (t := (p.page skip limit).template) hlast).mp hw'

/-- Skipping rows drops them from what the window keeps. The count is bound to a number because the window is,
so nothing has to be assumed of it. -/
theorem skip_window (h : p.skip count = .ok p') (hw' : p'.template.bindWindow bindings = .ok w') :
    ∃ w n, p.template.bindWindow bindings = .ok w ∧ count.bindCount bindings "skip" = .ok n ∧
      ∀ ds, w'.apply ds = (w.apply ds).drop n := by
  obtain ⟨hlast, ⟨hskip, hlimit, rfl⟩ | ⟨extra, prior, kept, hextra, hprior, hkept, -, rfl⟩⟩ := skip_spec h
  · -- the first page starts with the rows that are skipped
    obtain ⟨skip', _, hskip', ⟨⟩, rfl⟩ := bindWindow_page hlast hw'
    obtain ⟨n, hn, rfl⟩ := Operand.bindCount?_eq_some hskip'
    exact ⟨Window.ofCounts none none none, n, (Template.bindWindow_eq_ok hlast).mpr
      ⟨none, none, by rw [hskip]; rfl, by rw [hlimit]; rfl, rfl⟩, hn, fun ds => rfl⟩
  · obtain ⟨skip', limit', hskip', hlimit', rfl⟩ := bindWindow_page hlast hw'
    obtain ⟨skip, hskip, hgetD⟩ := p.template.bindCount?_of_skipped bindings hprior
    have hlimit : Operand.bindCount? bindings "limit" p.template.limit = .ok kept := by
      rcases hkept with ⟨hnone, rfl⟩ | ⟨operand, n, hsome, hknown, rfl⟩
      · rw [hnone]
        rfl
      · rw [hsome]
        exact bindCount?_some (bindCount_of_constantCount hknown)
    have hskipped : some (prior + extra) = skip' :=
      Except.ok.inj ((bindCount?_ofCount "skip" _).symm.trans hskip')
    have hlimited : kept.map (· - extra) = limit' := by
      cases kept with
      | none => exact Except.ok.inj hlimit'
      | some n => exact Except.ok.inj ((bindCount?_ofCount "limit" (n - extra)).symm.trans hlimit')
    refine ⟨Window.ofCounts skip kept none, extra,
      (Template.bindWindow_eq_ok hlast).mpr ⟨skip, kept, hskip, hlimit, rfl⟩,
      bindCount_of_constantCount hextra, fun ds => ?_⟩
    rw [Window.drop_apply_ofCounts, hgetD, ← hskipped, hlimited]

/-- Keeping rows takes them from what the window keeps, also if the window already keeps fewer than the
operator asks for. -/
theorem take_window (h : p.take count = .ok p') (hw' : p'.template.bindWindow bindings = .ok w') :
    ∃ w n, p.template.bindWindow bindings = .ok w ∧ count.bindCount bindings "limit" = .ok n ∧
      ∀ ds, w'.apply ds = (w.apply ds).take n := by
  obtain ⟨hlast, ⟨hlimit, rfl⟩ | ⟨operand, previous, next, hlimit, hprevious, hnext, rfl⟩⟩ := take_spec h
  · obtain ⟨skip, limit', hskip, hlimit', rfl⟩ := bindWindow_page hlast hw'
    obtain ⟨n, hn, rfl⟩ := Operand.bindCount?_eq_some hlimit'
    refine ⟨Window.ofCounts skip none none, n, (Template.bindWindow_eq_ok hlast).mpr
      ⟨skip, none, hskip, by rw [hlimit]; rfl, rfl⟩, hn, fun ds => ?_⟩
    rw [Window.take_apply_ofCounts]
    rfl
  · obtain ⟨skip, limit', hskip, hlimit', rfl⟩ := bindWindow_page hlast hw'
    have hlimited : some (min previous next) = limit' :=
      Except.ok.inj ((bindCount?_ofCount "limit" _).symm.trans hlimit')
    refine ⟨Window.ofCounts skip (some previous) none, next, (Template.bindWindow_eq_ok hlast).mpr
      ⟨skip, some previous, hskip, ?_, rfl⟩, bindCount_of_constantCount hnext, fun ds => ?_⟩
    · rw [hlimit]
      exact bindCount?_some (bindCount_of_constantCount hprevious)
    · rw [Window.take_apply_ofCounts, ← hlimited]
      rfl

/-! ## Before the first page -/

/-- Progress before any paging. A template starts like this, and it stays so as long as the pipeline filters
and orders. -/
structure Unpaged (p : Progress) : Prop where
  skip : p.template.skip = none
  limit : p.template.limit = none
  limitToLast : p.template.limitToLast = none

theorem Unpaged.bindWindow (h : p.Unpaged) (bindings : Bindings) :
    p.template.bindWindow bindings = .ok (Window.ofCounts none none none) := by
  rw [Template.bindWindow, h.skip, h.limit, h.limitToLast]
  rfl

/-- Keeping the last rows is the first and only page. -/
theorem takeLast_window (h : p.Unpaged)
    (hw' : { p.template with limitToLast := some count }.bindWindow bindings = .ok w') :
    ∃ n, count.bindCount bindings "limit_to_last" = .ok n ∧ w' = Window.ofCounts none none (some n) := by
  rw [Template.bindWindow] at hw'
  dsimp only at hw'
  rw [h.skip, h.limit] at hw'
  obtain ⟨_, ⟨⟩, hw'⟩ := Except.bind_eq_ok.mp hw'
  obtain ⟨last, hlast, hw'⟩ := Except.bind_eq_ok.mp hw'
  obtain ⟨_, ⟨⟩, hw'⟩ := Except.bind_eq_ok.mp hw'
  cases hw'
  obtain ⟨n, hn, rfl⟩ := Operand.bindCount?_eq_some hlast
  exact ⟨n, hn, rfl⟩

/-- A pipeline has not paged as long as it filters and orders. -/
theorem Step.unpaged {m : Model} {op : Operator} (h : Step m p op p')
    (hp : p.stage.within .ordered = true → p.Unpaged) :
    p'.stage.within .ordered = true → p'.Unpaged := by
  cases h with
  | filter hstage _ =>
    obtain ⟨target, filters, heq⟩ := p.restrict_eq _
    rw [heq]
    exact fun _ => ⟨(hp hstage).skip, (hp hstage).limit, (hp hstage).limitToLast⟩
  | orderBy hstage _ => exact fun _ => ⟨(hp hstage).skip, (hp hstage).limit, (hp hstage).limitToLast⟩
  | thenBy hstage _ _ => exact fun _ => ⟨(hp hstage).skip, (hp hstage).limit, (hp hstage).limitToLast⟩
  | skip _ _ h =>
    obtain ⟨_, _, rfl⟩ := skip_eq h
    exact fun h => (nomatch h)
  | take _ _ h =>
    obtain ⟨_, rfl⟩ := take_eq h
    exact fun h => (nomatch h)
  | loads _ _ => exact fun hstage => ⟨(hp hstage).skip, (hp hstage).limit, (hp hstage).limitToLast⟩
  | _ => exact fun h => (nomatch h)

end Progress

end DocumentQuery
