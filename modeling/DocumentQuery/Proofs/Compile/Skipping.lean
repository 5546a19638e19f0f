import DocumentQuery.Proofs.Compile.Paging
import DocumentQuery.Proofs.Compile.Refusals
import Mathlib.Algebra.Order.Ring.Nat
import Mathlib.Data.List.Induction

/-!
# Skips that are added up

A pipeline may skip rows several times, and its template has one count for all of them. Its counts are
constants of 64 bits, and so must their sum be (`Pipeline.compile_skipped`). A template that a pipeline is
compiled to skips as many rows as the operators together, never fewer. If the counts add up to more than
the largest count, there is no template: the pipeline overflows instead (`Pipeline.compile_overflows`), also
where all the rows there are would simply have been skipped.

The two halves are proved by one induction on the operators. What has been skipped so far is the sum of the
counts so far (`Progress.skipped_of_run`), so an addition overflows only where this sum exceeds the largest
count (`Progress.sum_of_overflow`); that no other operator overflows is known from the errors it fails with
(`Progress.step_failsOnly`).

The sum that the store is asked for, of the rows that are skipped and those that are kept, is cut off at the
largest count instead. Too large a sum is no harm there, because there are no more rows than that.

## Main definitions

* `Operator.skipCount` — the number of rows an operator skips
* `Operator.SkipsConstant` — operators whose number of skipped rows is a constant of 64 bits
-/

namespace DocumentQuery

open DocumentQuery.Except (FailsOnly failsOnly_ok failsOnly_error failsOnly_check)

variable {m : Model}

/-! ## Counts -/

/-- The count of an operand that is a constant, and 0 for an operand that is none. -/
def Operand.knownCount (operand : Operand) : Nat :=
  ((operand.constantCount "Skip").toOption).getD 0

theorem Operand.knownCount_eq {operand : Operand} {n : Nat} (h : operand.constantCount "Skip" = .ok n) :
    operand.knownCount = n := by
  rw [knownCount, h]
  rfl

namespace Operator

variable {op : Operator} {expr : Expr} {count : Operand} {n : Nat}

/-- How many rows an operator is known to skip. For a count that is not known this is 0, which no statement
uses, since they ask for constants. -/
def skipCount : Operator → Nat
  | .skip expr => ((Operand.ofExpr expr).toOption.map Operand.knownCount).getD 0
  | _ => 0

/-- Whether an operator that skips rows is given their number as a constant that fits 64 bits. Operators that
do not skip rows meet it at once. -/
def SkipsConstant (op : Operator) : Prop :=
  ∀ expr, op = .skip expr → ∃ operand n, Operand.ofExpr expr = .ok operand ∧
    operand.constantCount "Skip" = .ok n ∧ n ≤ Number.maxCount

/-- An operator that does not skip rows skips none. -/
theorem skipCount_of_ne (h : ∀ expr, op ≠ .skip expr) : op.skipCount = 0 := by
  cases op with
  | skip expr => exact absurd rfl (h expr)
  | _ => rfl

/-- An operator that skips rows skips as many as its constant says. -/
theorem skipCount_eq (hexpr : Operand.ofExpr expr = .ok count) (hn : count.constantCount "Skip" = .ok n) :
    (skip expr).skipCount = n := by
  rw [skipCount, hexpr]
  exact Operand.knownCount_eq hn

end Operator

namespace Progress

variable {p p' start : Progress} {op : Operator} {operators : List Operator} {total n : Nat}

/-! ## What is skipped -/

/-- Skipping rows once more adds to those that are skipped already. Because the pipeline is still compiled
afterwards, the sum is a count. -/
theorem skipped_skip {count : Operand} (h : p.skip count = .ok p') (hp : p.template.skipped = .ok total)
    (hcount : count.constantCount "Skip" = .ok n) (hn : n ≤ Number.maxCount) :
    p'.template.skipped = .ok (total + n) ∧ total + n ≤ Number.maxCount := by
  obtain ⟨-, ⟨hskip, -, rfl⟩ | ⟨extra, prior, kept, hextra, hprior, -, hsum, rfl⟩⟩ := skip_spec h
  · -- the first count stays as it was given
    rw [Template.skipped, hskip] at hp
    cases hp
    rw [Nat.zero_add]
    exact ⟨hcount, hn⟩
  · obtain rfl : n = extra := Except.ok.inj (hcount.symm.trans hextra)
    obtain rfl : total = prior := Except.ok.inj (hp.symm.trans hprior)
    exact ⟨Operand.constantCount_ofCount "Skip" _, hsum⟩

/-- No other operator changes how many rows are skipped. -/
theorem Step.skip_eq_of_ne (h : Step m p op p') (hop : ∀ expr, op ≠ .skip expr) :
    p'.template.skip = p.template.skip := by
  cases h with
  | filter _ _ =>
    obtain ⟨_, _, heq⟩ := p.restrict_eq _
    rw [heq]
  | @skip expr _ _ _ _ _ => exact absurd rfl (hop expr)
  | take _ _ h =>
    obtain ⟨_, rfl⟩ := take_eq h
    rfl
  | reduce _ h _ =>
    obtain ⟨_, _, rfl⟩ := h.eq
    rfl
  | pick h _ =>
    obtain ⟨_, _, rfl⟩ := h.eq
    rfl
  | _ => rfl

/-- An operator that skips rows is let in with a count. -/
theorem Step.exists_skip {expr : Expr} (h : Step m p (.skip expr) p') :
    ∃ count, Operand.ofExpr expr = .ok count ∧ p.skip count = .ok p' := by
  cases h with
  | skip _ htranslated h => exact ⟨_, htranslated, h⟩
  | loads hloads _ => exact nomatch hloads
  | reduce hreduces _ _ => exact nomatch hreduces

/-- An operator adds the rows it skips. -/
theorem Step.skipped (h : Step m p op p') (hop : op.SkipsConstant) (hp : p.template.skipped = .ok total)
    (htotal : total ≤ Number.maxCount) :
    p'.template.skipped = .ok (total + op.skipCount) ∧ total + op.skipCount ≤ Number.maxCount := by
  by_cases hskip : ∃ expr, op = .skip expr
  · obtain ⟨expr, rfl⟩ := hskip
    obtain ⟨operand, n, hoperand, hn, hle⟩ := hop expr rfl
    obtain ⟨count, hcount, h⟩ := h.exists_skip
    obtain rfl : count = operand := Except.ok.inj (hcount.symm.trans hoperand)
    rw [Operator.skipCount_eq hcount hn]
    exact skipped_skip h hp hn hle
  · have hne : ∀ expr, op ≠ .skip expr := fun expr he => hskip ⟨expr, he⟩
    rw [Operator.skipCount_of_ne hne, Nat.add_zero, Template.skipped, h.skip_eq_of_ne hne]
    exact ⟨hp, htotal⟩

/-- A run skips as many rows as its operators together, and their number is a count. By induction on the
operators from their end, with both halves at once: that the sum so far is a count is what the next addition
needs. -/
theorem skipped_of_run (h : operators.foldlM (step m) start = .ok p)
    (hoperators : ∀ op ∈ operators, op.SkipsConstant) (hstart : start.template.skip = none) :
    p.template.skipped = .ok (operators.map Operator.skipCount).sum ∧
      (operators.map Operator.skipCount).sum ≤ Number.maxCount := by
  induction operators using List.reverseRecOn generalizing p with
  | nil =>
    cases h
    rw [Template.skipped, hstart]
    exact ⟨rfl, Nat.zero_le _⟩
  | append_singleton operators op ih =>
    obtain ⟨before, hrun, hstep⟩ := run_append_singleton h
    obtain ⟨hbefore, hsmall⟩ := ih hrun fun op hop => hoperators op (List.mem_append_left _ hop)
    have hop := hoperators op (List.mem_append_right _ (List.mem_singleton_self op))
    rw [List.map_append, List.sum_append, List.map_singleton, List.sum_singleton]
    exact hstep.skipped hop hbefore hsmall

/-! ## Overflows -/

/-- Skipping rows overflows only if they are more than the largest count together with those that are
skipped already. -/
theorem skip_eq_overflow {count : Operand} (h : p.skip count = .error .overflow) :
    ∃ prior extra, p.template.skipped = .ok prior ∧ count.constantCount "Skip" = .ok extra ∧
      Number.maxCount < prior + extra := by
  have hexplains {fails : Prop} : ∀ e, QueryError.Explains e → e = .overflow → fails :=
    fun e he heq => absurd heq he
  refine (?_ : FailsOnly (· = .overflow → _) (p.skip count)) _ h rfl
  unfold skip
  refine failsOnly_check nofun ?_
  split
  · exact failsOnly_ok _
  refine ((count.constantCount_failsOnly "Skip").imp hexplains).bind fun extra hextra => ?_
  refine (p.template.skipped_failsOnly.imp hexplains).bind fun prior hprior => ?_
  refine FailsOnly.bind (fun e he _ => ⟨prior, extra, hprior, hextra, (addSkips_eq_error.mp he).1⟩)
    fun total _ => ?_
  exact ((p.template.keptAfter_failsOnly extra).imp hexplains).bind fun _ _ => failsOnly_ok _

/-- An operator overflows only if it skips rows that are too many together with those skipped already. -/
theorem step_eq_overflow (h : p.step m op = .error .overflow) (hop : op.SkipsConstant)
    (hp : p.template.skipped = .ok total) : Number.maxCount < total + op.skipCount := by
  by_cases hskip : ∃ expr, op = .skip expr
  · obtain ⟨expr, rfl⟩ := hskip
    obtain ⟨operand, n, hoperand, hn, -⟩ := hop expr rfl
    rw [Operator.skipCount_eq hoperand hn]
    have hskipped : p.skip operand = .error .overflow := by
      unfold step at h
      split at h
      · cases h
      rcases Except.bind_eq_error.mp h with h | ⟨_, -, h⟩
      · exact absurd rfl (p.require_failsOnly _ _ _ h)
      rw [hoperand] at h
      exact h
    obtain ⟨prior, extra, hprior, hextra, hlt⟩ := skip_eq_overflow hskipped
    obtain rfl : total = prior := Except.ok.inj (hp.symm.trans hprior)
    obtain rfl : n = extra := Except.ok.inj (hn.symm.trans hextra)
    exact hlt
  · exact absurd rfl (step_failsOnly (fun expr he => hskip ⟨expr, he⟩) _ h)

/-- A run overflows only if its operators skip more rows than the largest count together. -/
theorem sum_of_overflow (h : operators.foldlM (step m) start = .error .overflow)
    (hoperators : ∀ op ∈ operators, op.SkipsConstant) (hstart : start.template.skip = none) :
    Number.maxCount < (operators.map Operator.skipCount).sum := by
  induction operators using List.reverseRecOn with
  | nil => cases h
  | append_singleton operators op ih =>
    have hbefore : ∀ op ∈ operators, op.SkipsConstant := fun op hop =>
      hoperators op (List.mem_append_left _ hop)
    rw [List.map_append, List.sum_append, List.map_singleton, List.sum_singleton]
    rw [List.foldlM_append] at h
    rcases Except.bind_eq_error.mp h with h | ⟨p, hrun, h⟩
    · exact Nat.lt_of_lt_of_le (ih h hbefore) (Nat.le_add_right _ _)
    · rw [List.foldlM_cons] at h
      rcases Except.bind_eq_error.mp h with h | ⟨p', -, h⟩
      · exact step_eq_overflow h (hoperators op (List.mem_append_right _ (List.mem_singleton_self op)))
          (skipped_of_run hrun hbefore hstart).1
      · cases h

end Progress

/-- The store is asked for the rows that are kept and those that are skipped, or for as many as can be
counted. -/
theorem Window.serverLimit_eq_some {w : Window} {limit : Nat} (h : w.limit = some limit) :
    ∃ asked, w.serverLimit = some asked ∧
      (asked = limit + w.skip ∨ asked = Number.maxCount ∧ asked < limit + w.skip) := by
  refine ⟨saturate (limit + w.skip), by rw [serverLimit, h]; rfl, ?_⟩
  unfold saturate
  omega

namespace Pipeline

variable {pipeline : Pipeline}

/-- An overflow is due to the operators of a pipeline, not to its root. -/
theorem compile_eq_overflow (h : pipeline.compile m = .error .overflow) :
    ∃ start, start.template.skip = none ∧
      pipeline.operators.foldlM (Progress.step m) start = .error .overflow := by
  rcases Except.bind_eq_error.mp h with h | ⟨root, -, h⟩
  · exact absurd rfl (m.entityNamed_failsOnly pipeline.root _ h)
  split at h
  next collection key _ =>
    refine ⟨⟨Template.all collection root.name key, .filtering, none⟩, rfl, ?_⟩
    rcases Except.bind_eq_error.mp h with h | ⟨done, -, h⟩
    · exact h
    · cases h
  · cases h

/-- A template skips as many rows as the operators of its pipeline together, and their counts add up to a
count. A pipeline whose counts do so never overflows, so it is compiled unless an operator is refused. For
every window the store is asked for the rows that are kept and those that are skipped, or for as many as can
be counted, and for all rows if none are cut off.

That the counts are constants of 64 bits is what makes the sum one of numbers; a count that is a parameter is
taken over as it stands and is bound later. -/
theorem compile_skipped (pipeline : Pipeline) (hoperators : ∀ op ∈ pipeline.operators, op.SkipsConstant) :
    (∀ t, pipeline.compile m = .ok t →
        t.skipped = .ok (pipeline.operators.map Operator.skipCount).sum ∧
          (pipeline.operators.map Operator.skipCount).sum ≤ Number.maxCount) ∧
      ((pipeline.operators.map Operator.skipCount).sum ≤ Number.maxCount →
        pipeline.compile m ≠ .error .overflow) ∧
      ∀ w : Window, (w.limit = none → w.serverLimit = none) ∧
        ∀ limit, w.limit = some limit → ∃ asked, w.serverLimit = some asked ∧
          (asked = limit + w.skip ∨ asked = Number.maxCount ∧ asked < limit + w.skip) := by
  refine ⟨fun t h => ?_, fun hsum h => ?_, fun w => ⟨fun hnone => ?_, fun limit => w.serverLimit_eq_some⟩⟩
  · obtain ⟨root, collection, key, done, -, -, hrun, rfl⟩ := compile_spec h
    exact Progress.skipped_of_run hrun hoperators rfl
  · obtain ⟨start, hstart, h⟩ := compile_eq_overflow h
    exact absurd hsum (Nat.not_le.mpr (Progress.sum_of_overflow h hoperators hstart))
  · rw [Window.serverLimit, hnone]
    rfl

/-- All notes but the first ones. -/
def laterNotes (counts : List Nat) : Pipeline where
  root := "Note"
  operators := counts.map fun n => .skip (.constant (.count n))

/-- The operators of `laterNotes` skip constants if its numbers are counts. -/
theorem laterNotes_skipsConstant {counts : List Nat} (h : ∀ n ∈ counts, n ≤ Number.maxCount) :
    ∀ op ∈ (laterNotes counts).operators, op.SkipsConstant := by
  rintro op hop expr rfl
  obtain ⟨n, hn, he⟩ := List.mem_map.mp hop
  obtain rfl := Operator.skip.inj he
  exact ⟨.ofCount n, n, rfl, Operand.constantCount_ofCount "Skip" n, h n hn⟩

/-- Skipping one note and then two more skips three. -/
theorem compile_skipped_laterNotes : ∃ t, (laterNotes [1, 2]).compile Model.notes = .ok t ∧
    (∀ op ∈ (laterNotes [1, 2]).operators, op.SkipsConstant) ∧ t.skipped = .ok 3 := by
  have hconstant : ∀ op ∈ (laterNotes [1, 2]).operators, op.SkipsConstant :=
    laterNotes_skipsConstant (by decide)
  exact ⟨_, rfl, hconstant, ((compile_skipped (m := Model.notes) _ hconstant).1 _ rfl).1⟩

/-- Skipping as many notes as can be counted and then two more overflows, though each count is one. -/
theorem compile_overflows :
    (∀ op ∈ (laterNotes [Number.maxCount, 2]).operators, op.SkipsConstant) ∧
      ((laterNotes [Number.maxCount, 2]).operators.map Operator.skipCount).sum = Number.maxCount + 2 ∧
      (laterNotes [Number.maxCount, 2]).compile Model.notes = .error .overflow ∧
      ∃ t, (laterNotes [Number.maxCount]).compile Model.notes = .ok t ∧
        t.skipped = .ok Number.maxCount :=
  ⟨laterNotes_skipsConstant (by decide), by decide, rfl, _, rfl, Operand.constantCount_ofCount "Skip" _⟩

end Pipeline

end DocumentQuery
