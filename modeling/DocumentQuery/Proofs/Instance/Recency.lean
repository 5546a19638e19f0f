import DocumentQuery.Proofs.Instance.PlanCache
import Mathlib.Data.List.MinMax
import Mathlib.Data.List.Nodup
import Mathlib.Order.Monotone.Defs

/-!
# What the cache of plans keeps

A cache that has room for `n` plans keeps those of the `n` distinct keys that were used last
(`PlanCache.after_keeps`). A key is used when a plan is returned for it, be it found or built; a request
that fails uses nothing, and what was used before the cache was cleared does not count.

The cache lists its plans in the order of their last use. A cache may as well note the time of the last
use beside each plan, in no particular order, and give up the plan with the earliest time
(`ClockedCache`). As long as no two uses happen at the same time, both keep the same plans and count alike
(`ClockedCache.after_agrees`).

The list of entries in the order of use is the convenient form, and the clock is the one a program keeps. The
two are related by `ClockedCache.Agrees`, up to the order of the entries, and `ClockedCache.Ordered`, which
says that the times are in the order of the list. Both are kept by every use, whatever time has passed, so
long as some has.

## Main definitions

* `PlanCache.Moment`, `PlanCache.moments` — the uses of a cache, each with the cache at that moment
* `PlanCache.served` — the keys that were used since the cache was cleared, the latest first
* `ClockedCache` — plans with the time of their last use
-/

namespace DocumentQuery

/-! ## Distinct keys -/

section Distinct

variable {k : String} {keys : List String}

/-- Leaving out keys and leaving out repetitions can be exchanged. -/
theorem eraseDups_filter (p : String → Bool) : (keys : List String) →
    (keys.filter p).eraseDups = keys.eraseDups.filter p
  | [] => rfl
  | a :: keys => by
    have hrest := eraseDups_filter p (keys.filter fun b => !b == a)
    rw [List.eraseDups_cons]
    by_cases ha : p a = true
    · rw [List.filter_cons_of_pos ha, List.filter_cons_of_pos ha, List.eraseDups_cons, ← hrest,
        List.filter_filter, List.filter_filter]
      simp only [Bool.and_comm]
    · -- what does not meet the condition need not be taken out before
      rw [List.filter_cons_of_neg ha, List.filter_cons_of_neg ha, ← hrest, List.filter_filter]
      congr 1
      refine List.filter_congr fun b _ => ?_
      by_cases hb : b = a
      · subst hb
        simp [ha]
      · simp [hb]
termination_by keys => keys.length
decreasing_by exact Nat.lt_succ_of_le (List.length_filter_le _ keys)

theorem eraseDups_cons_eq (k : String) (keys : List String) :
    (k :: keys).eraseDups = k :: keys.eraseDups.filter (· != k) := by
  rw [List.eraseDups_cons, eraseDups_filter]
  rfl

theorem nodup_eraseDups (keys : List String) : keys.eraseDups.Nodup := by
  induction keys with
  | nil => exact List.nodup_nil
  | cons k keys ih =>
    rw [eraseDups_cons_eq, List.nodup_cons]
    exact ⟨by simp, ih.filter _⟩

/-- One of the first of distinct keys is taken out, and the next one moves up. -/
theorem take_filter_ne_of_mem {n : Nat} (hkeys : keys.Nodup) (hk : k ∈ keys.take (n + 1)) :
    (keys.filter (· != k)).take n = (keys.take (n + 1)).filter (· != k) := by
  induction keys generalizing n with
  | nil => exact nomatch hk
  | cons a keys ih =>
    obtain ⟨ha, hkeys⟩ := List.nodup_cons.mp hkeys
    by_cases hak : a = k
    · subst hak
      have hhead : ¬ (a != a) = true := by simp
      have hfirst : a ∉ keys.take n := fun hin => ha (List.take_subset _ _ hin)
      rw [List.take_succ_cons, List.filter_cons, List.filter_cons, if_neg hhead, if_neg hhead,
        List.filter_bne_eq_self_of_not_mem ha, List.filter_bne_eq_self_of_not_mem hfirst]
    · rw [List.take_succ_cons] at hk
      have hk : k ∈ keys.take n := (List.mem_cons.mp hk).resolve_left fun he => hak he.symm
      obtain ⟨n, rfl⟩ : ∃ n', n = n' + 1 := by
        cases n with
        | zero => exact nomatch hk
        | succ n => exact ⟨n, rfl⟩
      have hhead : (a != k) = true := bne_iff_ne.mpr hak
      rw [List.take_succ_cons, List.filter_cons, List.filter_cons, if_pos hhead, if_pos hhead,
        List.take_succ_cons, ih hkeys hk]

/-- What is not among the first keys may be taken out without a trace. -/
theorem take_filter_ne_of_not_mem {n : Nat} (hk : k ∉ keys.take n) :
    (keys.filter (· != k)).take n = keys.take n := by
  induction n generalizing keys with
  | zero => rfl
  | succ n ih =>
    cases keys with
    | nil => rfl
    | cons a keys =>
      rw [List.take_succ_cons, List.mem_cons, not_or] at hk
      rw [List.filter_cons, if_pos (bne_iff_ne.mpr fun he => hk.1 he.symm), List.take_succ_cons,
        List.take_succ_cons, ih hk.2]

end Distinct

namespace PlanCache

/-! ## Steps -/

/-- The keys of the plans that are kept, the latest used first. -/
def keys (c : PlanCache) : List String :=
  c.entries.map Prod.fst

theorem lookup_eq_none_iff {entries : List (String × InstancePlan)} {key : String} :
    entries.lookup key = none ↔ key ∉ entries.map Prod.fst := by
  rw [List.lookup_eq_none_iff, List.mem_map]
  constructor
  · rintro h ⟨entry, hentry, rfl⟩
    simpa using h entry hentry
  · intro h entry hentry
    exact bne_iff_ne.mpr fun he => h ⟨entry, hentry, he.symm⟩

theorem mem_of_lookup_eq_some {entries : List (String × InstancePlan)} {key : String} {plan : InstancePlan}
    (h : entries.lookup key = some plan) : key ∈ entries.map Prod.fst :=
  List.mem_map.mpr ⟨(key, plan), mem_of_lookup h, rfl⟩

theorem filter_ne_of_not_mem {entries : List (String × InstancePlan)} {key : String}
    (h : key ∉ entries.map Prod.fst) : entries.filter (·.1 != key) = entries :=
  List.filter_eq_self.mpr fun entry hentry =>
    bne_iff_ne.mpr fun he => h (List.mem_map.mpr ⟨entry, hentry, he⟩)

/-- What may come of a request: its plan is kept; there is none, and it is built; or it cannot be built. -/
theorem planFrom_cases (m : Model) (c : PlanCache) (r : Request) :
    (∃ plan, c.entries.lookup r.key = some plan ∧
      r.planFrom m c = (.ok plan, { c.touch r.key plan with hits := c.hits + 1 })) ∨
    (r.key ∉ c.keys ∧ ∃ plan, r.build m = .ok plan ∧
      r.planFrom m c = (.ok plan, ({ c with misses := c.misses + 1 } : PlanCache).makeRoom.touch r.key plan)) ∨
    (r.key ∉ c.keys ∧ ∃ e, r.build m = .error e ∧
      r.planFrom m c = (.error e, { c with misses := c.misses + 1 })) := by
  unfold Request.planFrom planFor
  dsimp only
  rw [← Request.key]
  cases hlookup : c.entries.lookup r.key with
  | some plan => exact .inl ⟨plan, rfl, rfl⟩
  | none =>
    have hkey := lookup_eq_none_iff.mp hlookup
    rw [← Request.build]
    cases hbuild : r.build m with
    | ok plan => exact .inr (.inl ⟨hkey, plan, rfl, rfl⟩)
    | error e => exact .inr (.inr ⟨hkey, e, rfl, rfl⟩)

/-- A plan that was given once is given again. -/
theorem planFrom_again {m : Model} {c : PlanCache} {r : Request} {plan : InstancePlan}
    (h : (r.planFrom m c).1 = .ok plan) : (r.planFrom m (r.planFrom m c).2).1 = .ok plan := by
  have hkept {c : PlanCache} (hlookup : c.entries.lookup r.key = some plan) :
      (r.planFrom m c).1 = .ok plan := by
    have hmem := mem_of_lookup_eq_some hlookup
    rcases planFrom_cases m c r with ⟨kept, hkept, heq⟩ | ⟨hkey, -⟩ | ⟨hkey, -⟩
    · rw [heq, ← Option.some.inj (hlookup.symm.trans hkept)]
    · exact absurd hmem hkey
    · exact absurd hmem hkey
  refine hkept ?_
  rcases planFrom_cases m c r with ⟨given, -, heq⟩ | ⟨-, given, -, heq⟩ | ⟨-, e, -, heq⟩ <;> rw [heq] at h ⊢
  · cases h
    exact List.lookup_cons_self
  · cases h
    exact List.lookup_cons_self
  · cases h

theorem keys_touch (c : PlanCache) (key : String) (plan : InstancePlan) :
    (c.touch key plan).keys = key :: c.keys.filter (· != key) := by
  show key :: (c.entries.filter (·.1 != key)).map Prod.fst = _
  rw [keys, List.filter_map]
  rfl

theorem keys_makeRoom {c : PlanCache} (hlength : c.keys.length ≤ c.capacity) :
    c.makeRoom.keys = c.keys.take (c.capacity - 1) := by
  rw [keys, List.length_map] at hlength
  unfold makeRoom
  split
  next hfull =>
    rw [keys, keys, ← List.map_take, List.dropLast_eq_take, Nat.le_antisymm hlength hfull]
  next hroom =>
    rw [keys, ← List.map_take, List.take_of_length_le (by omega)]

/-! ## Histories -/

/-- A use of a cache, with the cache at that moment. -/
structure Moment where
  before : PlanCache
  use : Use

namespace Moment

/-- Whether a plan is asked for. -/
def requests (x : Moment) : Bool :=
  x.use.request?.isSome

/-- The key for which a plan is returned. -/
def served? (m : Model) (x : Moment) : Option String := do
  let r ← x.use.request?
  match (r.planFrom m x.before).1 with
  | .ok _ => some r.key
  | .error _ => none

theorem served?_planFor (m : Model) (c : PlanCache) (r : Request) :
    served? m ⟨c, .planFor r⟩ = match (r.planFrom m c).1 with
      | .ok _ => some r.key
      | .error _ => none :=
  rfl

/-- Whether no plan is kept and one is built. -/
def builds (m : Model) (x : Moment) : Bool :=
  x.use.request?.any fun r => (x.before.entries.lookup r.key).isNone && (r.build m).isOk

end Moment

/-- The uses of a cache one after the other. -/
def moments (m : Model) (c : PlanCache) : List Use → List Moment
  | [] => []
  | u :: us => ⟨c, u⟩ :: moments m (c.use m u) us

variable {m : Model} {capacity : Nat} {uses : List Use}

theorem moments_concat (c : PlanCache) (uses : List Use) (last : Use) :
    moments m c (uses ++ [last]) = moments m c uses ++ [⟨uses.foldl (use m) c, last⟩] := by
  induction uses generalizing c with
  | nil => rfl
  | cons u us ih =>
    rw [List.cons_append, moments, ih]
    rfl

/-- The keys for which plans were returned since the cache was cleared last, the latest first. -/
def served (m : Model) (capacity : Nat) (uses : List Use) : List String :=
  ((moments m (ofCapacity capacity) uses).reverse.takeWhile Moment.requests).filterMap (Moment.served? m)

theorem served_clear : served m capacity (uses ++ [.clear]) = [] := by
  rw [served, moments_concat, List.reverse_append]
  rfl

theorem served_planFor (r : Request) : served m capacity (uses ++ [.planFor r]) =
    (Moment.served? m ⟨after m capacity uses, .planFor r⟩).toList ++ served m capacity uses := by
  have hmoment : (⟨uses.foldl (use m) (ofCapacity capacity), .planFor r⟩ : Moment) =
      ⟨after m capacity uses, .planFor r⟩ := rfl
  rw [served, moments_concat, hmoment, List.reverse_append, List.reverse_singleton,
    List.singleton_append, List.takeWhile_cons_of_pos rfl, List.filterMap_cons, ← served]
  cases Moment.served? m ⟨after m capacity uses, .planFor r⟩ <;> rfl

/-- A request that gets a plan is served last. -/
theorem served_of_ok {r : Request} {plan : InstancePlan}
    (h : (r.planFrom m (after m capacity uses)).1 = .ok plan) :
    served m capacity (uses ++ [.planFor r]) = r.key :: served m capacity uses := by
  rw [served_planFor, Moment.served?_planFor, h]
  rfl

/-- A request that fails is not served. -/
theorem served_of_error {r : Request} {e : Failure}
    (h : (r.planFrom m (after m capacity uses)).1 = .error e) :
    served m capacity (uses ++ [.planFor r]) = served m capacity uses := by
  rw [served_planFor, Moment.served?_planFor, h]
  rfl

/-! ## Kept plans -/

theorem capacity_makeRoom (c : PlanCache) : c.makeRoom.capacity = c.capacity := by
  unfold makeRoom
  split <;> rfl

/-- The room of a cache does not change. -/
theorem capacity_use (c : PlanCache) (u : Use) : (c.use m u).capacity = c.capacity := by
  cases u with
  | clear => rfl
  | planFor r =>
    rcases planFrom_cases m c r with ⟨plan, -, h⟩ | ⟨-, plan, -, h⟩ | ⟨-, e, -, h⟩
    · rw [use, h]
      rfl
    · rw [use, h]
      exact capacity_makeRoom _
    · rw [use, h]

theorem capacity_after : (after m capacity uses).capacity = max capacity 1 := by
  induction uses using List.reverseRecOn with
  | nil => rfl
  | append_singleton uses last ih => rw [after_concat, capacity_use, ih]

/-- The kept keys are the last ones that were used, each once, as many as there is room for. By induction on
the uses from their end: a key that is used moves to the front, and the others keep their order. -/
theorem keys_after : (after m capacity uses).keys =
    (served m capacity uses).eraseDups.take (max capacity 1) := by
  induction uses using List.reverseRecOn with
  | nil => exact List.take_nil.symm
  | append_singleton uses last ih =>
    rw [after_concat]
    cases last with
    | clear =>
      rw [served_clear]
      exact List.take_nil.symm
    | planFor r =>
      have hcapacity : (after m capacity uses).capacity = max capacity 1 := capacity_after
      obtain ⟨room, hroom⟩ : ∃ room, max capacity 1 = room + 1 :=
        ⟨max capacity 1 - 1, by omega⟩
      rw [hroom] at hcapacity ih ⊢
      have hdistinct := nodup_eraseDups (served m capacity uses)
      rcases planFrom_cases m (after m capacity uses) r with
        ⟨plan, hkept, h⟩ | ⟨hkey, plan, -, h⟩ | ⟨hkey, e, -, h⟩
      · have hkey : r.key ∈ (after m capacity uses).keys := mem_of_lookup_eq_some hkept
        rw [served_of_ok (congrArg Prod.fst h), eraseDups_cons_eq, List.take_succ_cons, use, h]
        show ((after m capacity uses).touch r.key plan).keys = _
        rw [keys_touch, ih, take_filter_ne_of_mem hdistinct (ih ▸ hkey)]
      · rw [served_of_ok (congrArg Prod.fst h), eraseDups_cons_eq, List.take_succ_cons, use, h]
        rw [ih] at hkey
        have hmade : (makeRoom { after m capacity uses with
            misses := (after m capacity uses).misses + 1 }).keys =
              (served m capacity uses).eraseDups.take room := by
          rw [keys_makeRoom]
          · show (after m capacity uses).keys.take ((after m capacity uses).capacity - 1) = _
            rw [ih, hcapacity, List.take_take, Nat.add_sub_cancel, Nat.min_eq_left (Nat.le_succ room)]
          · show (after m capacity uses).keys.length ≤ (after m capacity uses).capacity
            rw [ih, hcapacity]
            exact List.length_take_le _ _
        -- making room gives up the last key, which the new one replaces in the list as well
        have hnew : r.key ∉ (served m capacity uses).eraseDups.take room :=
          fun hin => hkey (List.take_subset_take_left _ (Nat.le_succ room) hin)
        rw [keys_touch, hmade, take_filter_ne_of_not_mem hnew,
          List.filter_bne_eq_self_of_not_mem hnew]
      · rw [served_of_error (congrArg Prod.fst h), use, h]
        exact ih

/-- No key is kept twice. -/
theorem nodup_keys_after : (after m capacity uses).keys.Nodup := by
  rw [keys_after]
  exact (nodup_eraseDups _).sublist (List.take_sublist _ _)

/-! ## Statistics -/

/-- What is given up to make room is counted. -/
theorem length_makeRoom {c : PlanCache} (hcapacity : 0 < c.capacity) :
    c.makeRoom.entries.length + c.makeRoom.evictions = c.entries.length + c.evictions := by
  unfold makeRoom
  split
  · dsimp only
    rw [List.length_dropLast]
    omega
  · rfl

theorem length_touch_of_mem {c : PlanCache} {key : String} {plan : InstancePlan} (hkeys : c.keys.Nodup)
    (hkey : key ∈ c.keys) : (c.touch key plan).entries.length = c.entries.length := by
  have hlength : (c.touch key plan).keys.length = c.keys.length := by
    rw [keys_touch, ← hkeys.erase_eq_filter, List.length_cons, List.length_erase_of_mem hkey]
    have := List.length_pos_of_mem hkey
    omega
  simpa only [keys, List.length_map] using hlength

theorem length_touch_of_not_mem {c : PlanCache} {key : String} {plan : InstancePlan}
    (hkey : key ∉ c.keys) : (c.touch key plan).entries.length = c.entries.length + 1 := by
  have hlength : (c.touch key plan).keys.length = c.keys.length + 1 := by
    rw [keys_touch, List.length_cons, List.filter_bne_eq_self_of_not_mem hkey]
  simpa only [keys, List.length_map] using hlength

theorem mem_keys_makeRoom {c : PlanCache} {key : String} (h : key ∈ c.makeRoom.keys) : key ∈ c.keys := by
  obtain ⟨entry, hentry, rfl⟩ := List.mem_map.mp h
  exact List.mem_map_of_mem (mem_makeRoom hentry)

/-- Every request is a hit or a miss, also one that fails. -/
theorem requests_after : (after m capacity uses).hits + (after m capacity uses).misses =
    (uses.filterMap Use.request?).length := by
  induction uses using List.reverseRecOn with
  | nil => rfl
  | append_singleton uses last ih =>
    rw [after_concat, List.filterMap_append, List.length_append, ← ih]
    generalize after m capacity uses = c
    cases last with
    | clear => rfl
    | planFor r =>
      show _ = c.hits + c.misses + 1
      rcases planFrom_cases m c r with ⟨plan, -, h⟩ | ⟨-, plan, -, h⟩ | ⟨-, e, -, h⟩
      · rw [use, h]
        show c.hits + 1 + c.misses = _
        omega
      · rw [use, h]
        show (makeRoom _).hits + (makeRoom _).misses = _
        unfold makeRoom
        split <;> exact (Nat.add_assoc _ _ _).symm
      · rw [use, h]
        exact (Nat.add_assoc _ _ _).symm

/-- Every plan that was built is kept, or it was given up and counted. Clearing is left out because it gives
plans up without counting them. -/
theorem built_after (hclear : .clear ∉ uses) :
    (after m capacity uses).entries.length + (after m capacity uses).evictions =
      (moments m (ofCapacity capacity) uses).countP (Moment.builds m) := by
  induction uses using List.reverseRecOn with
  | nil => rfl
  | append_singleton uses last ih =>
    have hkeys : (after m capacity uses).keys.Nodup := nodup_keys_after
    have hcapacity : (after m capacity uses).capacity = max capacity 1 := capacity_after
    rw [after_concat, moments_concat, List.countP_append, ← after,
      ← ih fun h => hclear (List.mem_append_left _ h), List.countP_singleton]
    generalize after m capacity uses = c at hkeys hcapacity ⊢
    cases last with
    | clear => exact absurd (List.mem_append_right _ (List.mem_singleton_self _)) hclear
    | planFor r =>
      have hbuilds : Moment.builds m ⟨c, .planFor r⟩ =
          ((c.entries.lookup r.key).isNone && (r.build m).isOk) := rfl
      rcases planFrom_cases m c r with ⟨plan, hkept, h⟩ | ⟨hkey, plan, hbuild, h⟩ | ⟨hkey, e, hbuild, h⟩
      · have hkey : r.key ∈ c.keys := mem_of_lookup_eq_some hkept
        rw [hbuilds, hkept, use, h]
        show (c.touch r.key plan).entries.length + c.evictions = _
        rw [length_touch_of_mem hkeys hkey]
        rfl
      · rw [hbuilds, lookup_eq_none_iff.mpr hkey, hbuild, use, h]
        let counted : PlanCache := { c with misses := c.misses + 1 }
        have hnew : r.key ∉ counted.makeRoom.keys := fun hin =>
          hkey (show r.key ∈ counted.keys from mem_keys_makeRoom hin)
        -- what makes room for the plan is counted as it is given up
        have hroom : counted.makeRoom.entries.length + counted.makeRoom.evictions =
            c.entries.length + c.evictions :=
          length_makeRoom (by show 0 < c.capacity; omega)
        show (counted.makeRoom.touch r.key plan).entries.length + counted.makeRoom.evictions =
          c.entries.length + c.evictions + 1
        rw [length_touch_of_not_mem hnew, ← hroom]
        omega
      · rw [hbuilds, lookup_eq_none_iff.mpr hkey, hbuild, use, h]
        rfl

end PlanCache

/-! ## Times of use -/

/-- Plans with the time of their last use, in any order. The time is that of a clock outside, which is only
asked to go on. -/
structure ClockedCache where
  /-- The plans under their keys. -/
  entries : List (String × InstancePlan)
  /-- The time when the plan of a key was used last. -/
  lastUse : String → Nat
  /-- How many plans there is room for. -/
  capacity : Nat
  /-- How many requests have found a plan. -/
  hits : Nat
  /-- How many requests have not. -/
  misses : Nat
  /-- How many plans were given up to make room. -/
  evictions : Nat

namespace ClockedCache

open PlanCache (Request Use)

/-- The empty cache; it has room for at least one plan. -/
def ofCapacity (capacity : Nat) : ClockedCache :=
  ⟨[], fun _ => 0, max capacity 1, 0, 0, 0⟩

/-- Gives up the plan with the earliest last use. -/
def evict (x : ClockedCache) : ClockedCache :=
  match x.entries.argmin fun entry => x.lastUse entry.1 with
  | some oldest =>
    { x with entries := x.entries.filter (·.1 != oldest.1), evictions := x.evictions + 1 }
  | none => x

/-- Gives up a plan if there is no room. -/
def makeRoom (x : ClockedCache) : ClockedCache :=
  if x.capacity ≤ x.entries.length then x.evict else x

/-- Notes the time of a use. -/
def stamp (x : ClockedCache) (key : String) (now : Nat) : ClockedCache :=
  { x with lastUse := Function.update x.lastUse key now }

/-- The plan for a request at some time, and the cache then. -/
def planFor (m : Model) (now : Nat) (x : ClockedCache) (r : Request) :
    Except Failure InstancePlan × ClockedCache :=
  match x.entries.lookup r.key with
  | some plan => (.ok plan, { x.stamp r.key now with hits := x.hits + 1 })
  | none =>
    let x := { x with misses := x.misses + 1 }
    match r.build m with
    | .ok plan =>
      let x := x.makeRoom.stamp r.key now
      (.ok plan, { x with entries := (r.key, plan) :: x.entries })
    | .error e => (.error e, x)

/-- A cache that was used once more, at some time. -/
def use (m : Model) (now : Nat) (x : ClockedCache) : Use → ClockedCache
  | .planFor r => (x.planFor m now r).2
  | .clear => { x with entries := [] }

/-- A cache of some capacity that was used, at the times a clock tells. -/
def after (m : Model) (clock : Nat → Nat) (capacity : Nat) (uses : List Use) : ClockedCache :=
  uses.zipIdx.foldl (fun x (u, i) => x.use m (clock i) u) (ofCapacity capacity)

theorem after_concat (m : Model) (clock : Nat → Nat) (capacity : Nat) (uses : List Use) (last : Use) :
    after m clock capacity (uses ++ [last]) =
      (after m clock capacity uses).use m (clock uses.length) last := by
  rw [after, List.zipIdx_append, List.foldl_append, Nat.zero_add]
  rfl

/-- A cache with times keeps the plans of a cache that lists them in order, and has counted alike. It may have
them in another order. -/
structure Agrees (x : ClockedCache) (c : PlanCache) : Prop where
  entries : x.entries.Perm c.entries
  capacity : x.capacity = c.capacity
  hits : x.hits = c.hits
  misses : x.misses = c.misses
  evictions : x.evictions = c.evictions

/-- The times are in the order of the list. -/
structure Ordered (now : Nat) (x : ClockedCache) (c : PlanCache) : Prop where
  /-- What is listed before was used later. -/
  later : c.entries.Pairwise fun newer older => x.lastUse older.1 < x.lastUse newer.1
  /-- No use is in the future. -/
  past : ∀ entry ∈ c.entries, x.lastUse entry.1 < now

variable {m : Model} {x : ClockedCache} {c : PlanCache} {now : Nat}

/-- No key is listed twice, since it was used last at one time only. -/
theorem Ordered.nodup (h : x.Ordered now c) : c.keys.Nodup := by
  rw [PlanCache.keys, List.Nodup, List.pairwise_map]
  exact h.later.imp fun hlt he => absurd (he ▸ hlt) (Nat.lt_irrefl _)

/-- A plan is taken out of a list and put in front of it. -/
theorem perm_of_mem {entries : List (String × InstancePlan)} {key : String} {plan : InstancePlan}
    (hkeys : (entries.map Prod.fst).Nodup) (hin : (key, plan) ∈ entries) :
    entries.Perm ((key, plan) :: entries.filter (·.1 != key)) := by
  obtain ⟨before, after, rfl⟩ := List.append_of_mem hin
  rw [List.map_append, List.map_cons, List.nodup_middle, List.nodup_cons, ← List.map_append] at hkeys
  have hothers : (before ++ after).filter (·.1 != key) = before ++ after :=
    PlanCache.filter_ne_of_not_mem hkeys.1
  have hself : ¬ (key != key) = true := by simp
  rw [List.filter_append, List.filter_cons, if_neg hself, ← List.filter_append, hothers]
  exact List.perm_middle

/-- Both caches find the same plan under a key. -/
theorem Agrees.lookup_eq (h : x.Agrees c) (hkeys : c.keys.Nodup) (key : String) :
    x.entries.lookup key = c.entries.lookup key := by
  cases hkept : c.entries.lookup key with
  | none =>
    rw [PlanCache.lookup_eq_none_iff] at hkept ⊢
    exact fun hin => hkept ((h.entries.map Prod.fst).mem_iff.mp hin)
  | some plan =>
    cases hfound : x.entries.lookup key with
    | none =>
      refine absurd ?_ (PlanCache.lookup_eq_none_iff.mp hfound)
      exact (h.entries.map Prod.fst).mem_iff.mpr (PlanCache.mem_of_lookup_eq_some hkept)
    | some plan' =>
      have hboth : (key, plan') ∈ c.entries := h.entries.mem_iff.mp (mem_of_lookup hfound)
      have hsame := List.inj_on_of_nodup_map hkeys hboth (mem_of_lookup hkept) rfl
      exact congrArg (some ·.2) hsame

/-- The plan that is given up is the same one. -/
theorem Agrees.evict (h : x.Agrees c) (hordered : x.Ordered now c) (hne : c.entries ≠ []) :
    x.evict.Agrees { c with entries := c.entries.dropLast, evictions := c.evictions + 1 } := by
  obtain ⟨kept, last, hentries⟩ : ∃ kept last, c.entries = kept ++ [last] :=
    ⟨_, _, (List.dropLast_append_getLast hne).symm⟩
  have hmem : ∀ entry, entry ∈ x.entries ↔ entry ∈ kept ∨ entry = last := by
    intro entry
    rw [h.entries.mem_iff, hentries, List.mem_append, List.mem_singleton]
  have hlater := hordered.later
  rw [hentries, List.pairwise_append] at hlater
  have hlater : ∀ entry ∈ kept, x.lastUse last.1 < x.lastUse entry.1 :=
    fun entry hin => hlater.2.2 entry hin last (List.mem_singleton_self _)
  -- the last of the list has the earliest time
  have holdest : (x.entries.argmin fun entry => x.lastUse entry.1) = some last := by
    cases hargmin : x.entries.argmin fun entry => x.lastUse entry.1 with
    | none =>
      rw [List.argmin_eq_none] at hargmin
      exact absurd ((hmem last).mpr (.inr rfl)) (hargmin ▸ List.not_mem_nil)
    | some oldest =>
      rcases (hmem oldest).mp (List.argmin_mem hargmin) with hin | rfl
      · have hle := List.le_of_mem_argmin ((hmem last).mpr (.inr rfl)) hargmin
        exact absurd (hlater oldest hin) (Nat.not_lt.mpr hle)
      · rfl
  have hrest : kept.filter (·.1 != last.1) = kept := by
    refine List.filter_eq_self.mpr fun entry hin => bne_iff_ne.mpr fun he => ?_
    exact absurd (he ▸ hlater entry hin) (Nat.lt_irrefl _)
  have hlast : ¬ (last.1 != last.1) = true := by simp
  unfold ClockedCache.evict
  rw [holdest]
  refine ⟨?_, h.capacity, h.hits, h.misses, congrArg (· + 1) h.evictions⟩
  have hperm := h.entries.filter (·.1 != last.1)
  rw [hentries, List.filter_append, hrest, List.filter_cons, if_neg hlast, List.filter_nil,
    List.append_nil] at hperm
  show (x.entries.filter (·.1 != last.1)).Perm c.entries.dropLast
  rwa [hentries, List.dropLast_concat]

theorem Agrees.makeRoom (h : x.Agrees c) (hordered : x.Ordered now c) (hcapacity : 0 < c.capacity) :
    x.makeRoom.Agrees c.makeRoom := by
  unfold ClockedCache.makeRoom PlanCache.makeRoom
  rw [h.capacity, h.entries.length_eq]
  split
  next hfull => exact h.evict hordered (List.ne_nil_of_length_pos (Nat.lt_of_lt_of_le hcapacity hfull))
  next => exact h

/-- Making room forgets no time. -/
theorem lastUse_makeRoom (x : ClockedCache) : x.makeRoom.lastUse = x.lastUse := by
  unfold makeRoom evict
  split
  · split <;> rfl
  · rfl

theorem Ordered.makeRoom (h : x.Ordered now c) : x.makeRoom.Ordered now c.makeRoom where
  later := by
    rw [lastUse_makeRoom]
    unfold PlanCache.makeRoom
    split
    · exact h.later.sublist (List.dropLast_sublist _)
    · exact h.later
  past := fun entry hin => by
    rw [lastUse_makeRoom]
    exact h.past entry (PlanCache.mem_makeRoom hin)

/-- A plan that is used comes first in the list, and its time is the latest. -/
theorem Ordered.touch (h : x.Ordered now c) (key : String) (plan : InstancePlan) :
    (x.stamp key now).Ordered (now + 1) (c.touch key plan) := by
  have hstamp : ∀ entry ∈ c.entries.filter (·.1 != key),
      (x.stamp key now).lastUse entry.1 = x.lastUse entry.1 := by
    intro entry hin
    exact Function.update_of_ne (bne_iff_ne.mp (List.mem_filter.mp hin).2) _ _
  have hnow : (x.stamp key now).lastUse key = now := Function.update_self _ _ _
  constructor
  · refine List.pairwise_cons.mpr ⟨fun entry hin => ?_, ?_⟩
    · rw [hstamp entry hin, hnow]
      exact h.past entry (List.mem_filter.mp hin).1
    · refine (h.later.sublist List.filter_sublist).imp_of_mem fun hnewer holder hlt => ?_
      rwa [hstamp _ hnewer, hstamp _ holder]
  · intro entry hin
    rcases List.mem_cons.mp hin with rfl | hin
    · exact Nat.lt_succ_of_le (Nat.le_of_eq hnow)
    · rw [hstamp entry hin]
      exact Nat.lt_succ_of_lt (h.past entry (List.mem_filter.mp hin).1)

/-- Both caches answer alike and stay in agreement. -/
theorem Agrees.planFor (h : x.Agrees c) (hordered : x.Ordered now c) (hcapacity : 0 < c.capacity)
    (r : Request) : (x.planFor m now r).1 = (r.planFrom m c).1 ∧
      (x.planFor m now r).2.Agrees (r.planFrom m c).2 ∧
      (x.planFor m now r).2.Ordered (now + 1) (r.planFrom m c).2 := by
  have hlookup := h.lookup_eq hordered.nodup r.key
  rcases PlanCache.planFrom_cases m c r with
    ⟨plan, hkept, hc⟩ | ⟨hkey, plan, hbuild, hc⟩ | ⟨hkey, e, hbuild, hc⟩
  · have hx : x.planFor m now r = (.ok plan, { x.stamp r.key now with hits := x.hits + 1 }) := by
      rw [ClockedCache.planFor, hlookup, hkept]
    have htouched := hordered.touch r.key plan
    rw [hx, hc]
    refine ⟨rfl, ⟨?_, h.capacity, congrArg (· + 1) h.hits, h.misses, h.evictions⟩,
      ⟨htouched.later, htouched.past⟩⟩
    exact h.entries.trans (perm_of_mem hordered.nodup (mem_of_lookup hkept))
  -- both count the miss, make room, and put the new plan in front
  · let counted : PlanCache := { c with misses := c.misses + 1 }
    let x' : ClockedCache := { x with misses := x.misses + 1 }
    have hagrees : x'.Agrees counted :=
      ⟨h.entries, h.capacity, h.hits, congrArg (· + 1) h.misses, h.evictions⟩
    have hordered : x'.Ordered now counted := ⟨hordered.later, hordered.past⟩
    have hroom := hagrees.makeRoom hordered hcapacity
    have htouched := hordered.makeRoom.touch r.key plan
    have hx : x.planFor m now r = (.ok plan, { x'.makeRoom.stamp r.key now with
        entries := (r.key, plan) :: x'.makeRoom.entries }) := by
      rw [ClockedCache.planFor, hlookup, PlanCache.lookup_eq_none_iff.mpr hkey, hbuild]
      rfl
    rw [hx, hc]
    refine ⟨rfl, ⟨?_, hroom.capacity, hroom.hits, hroom.misses, hroom.evictions⟩,
      ⟨htouched.later, htouched.past⟩⟩
    have hnew : counted.makeRoom.entries.filter (·.1 != r.key) = counted.makeRoom.entries :=
      PlanCache.filter_ne_of_not_mem fun hin =>
        hkey (show r.key ∈ counted.keys from PlanCache.mem_keys_makeRoom hin)
    show ((r.key, plan) :: x'.makeRoom.entries).Perm
      ((r.key, plan) :: counted.makeRoom.entries.filter (·.1 != r.key))
    rw [hnew]
    exact hroom.entries.cons _
  · have hx : x.planFor m now r = (.error e, { x with misses := x.misses + 1 }) := by
      rw [ClockedCache.planFor, hlookup, PlanCache.lookup_eq_none_iff.mpr hkey, hbuild]
    rw [hx, hc]
    exact ⟨rfl, ⟨h.entries, h.capacity, h.hits, congrArg (· + 1) h.misses, h.evictions⟩,
      ⟨hordered.later, fun entry hin => Nat.lt_succ_of_lt (hordered.past entry hin)⟩⟩

theorem Ordered.mono {now' : Nat} (h : x.Ordered now c) (hle : now ≤ now') : x.Ordered now' c :=
  ⟨h.later, fun entry hin => Nat.lt_of_lt_of_le (h.past entry hin) hle⟩

/-- A cache that notes the times of a clock agrees with one that lists its plans in order, if the clock goes
on between two uses. With two uses at one time the earliest would not be determined. -/
theorem after_agrees (m : Model) {clock : Nat → Nat} (hclock : StrictMono clock) (capacity : Nat)
    (uses : List Use) : (after m clock capacity uses).Agrees (PlanCache.after m capacity uses) ∧
      (after m clock capacity uses).Ordered (clock uses.length) (PlanCache.after m capacity uses) := by
  induction uses using List.reverseRecOn with
  | nil => exact ⟨⟨.refl _, rfl, rfl, rfl, rfl⟩, ⟨.nil, fun _ hin => (nomatch hin)⟩⟩
  | append_singleton uses last ih =>
    obtain ⟨hagrees, hordered⟩ := ih
    rw [after_concat, PlanCache.after_concat, List.length_append]
    have hnext : clock uses.length + 1 ≤ clock (uses.length + [last].length) :=
      hclock (Nat.lt_succ_self uses.length)
    cases last with
    | clear =>
      exact ⟨⟨.refl _, hagrees.capacity, hagrees.hits, hagrees.misses, hagrees.evictions⟩,
        ⟨.nil, fun _ hin => (nomatch hin)⟩⟩
    | planFor r =>
      have hcapacity : 0 < (PlanCache.after m capacity uses).capacity := by
        rw [PlanCache.capacity_after]
        omega
      obtain ⟨-, hagrees, hordered⟩ := hagrees.planFor (m := m) hordered hcapacity r
      exact ⟨hagrees, hordered.mono hnext⟩

end ClockedCache

namespace PlanCache

/-- A cache keeps the plans of the keys that were used last, as many as it has room for. A request whose plan
cannot be built changes nothing, but that it is counted as a miss. Every request is a hit or a miss, and every
plan that was built is kept or counted as given up, as long as the cache is not cleared. It cannot be told
from a cache that notes when its plans were used and gives up the one with the earliest time.

A capacity of 0 is one of 1. Nothing is assumed of the model or of the uses; what the last part asks of the
clock is that it goes on. -/
theorem after_keeps (m : Model) (capacity : Nat) (uses : List Use) :
    let c := after m capacity uses
    c.keys = (served m capacity uses).eraseDups.take (max capacity 1) ∧
      (∀ (r : Request) (e : Failure), r.key ∉ c.keys → r.build m = .error e →
        r.planFrom m c = (.error e, { c with misses := c.misses + 1 })) ∧
      c.hits + c.misses = (uses.filterMap Use.request?).length ∧
      (.clear ∉ uses → c.entries.length + c.evictions =
        (moments m (ofCapacity capacity) uses).countP (Moment.builds m)) ∧
      ∀ clock : Nat → Nat, StrictMono clock →
        let x := ClockedCache.after m clock capacity uses
        x.Agrees c ∧ ∀ r, (x.planFor m (clock uses.length) r).1 = (r.planFrom m c).1 := by
  refine ⟨keys_after, fun r e hkey hbuild => ?_, requests_after, built_after, fun clock hclock => ?_⟩
  · rcases planFrom_cases m (after m capacity uses) r with
      ⟨plan, hkept, -⟩ | ⟨-, plan, hbuilt, -⟩ | ⟨-, e', hfails, h⟩
    · exact absurd (mem_of_lookup_eq_some hkept) hkey
    · exact nomatch hbuilt.symm.trans hbuild
    · cases hfails.symm.trans hbuild
      exact h
  · obtain ⟨hagrees, hordered⟩ := ClockedCache.after_agrees m hclock capacity uses
    have hcapacity : 0 < (after m capacity uses).capacity := by
      rw [capacity_after]
      omega
    exact ⟨hagrees, fun r => (hagrees.planFor hordered hcapacity r).1⟩

/-- A type that is made of a rank only. -/
def ranks : Model :=
  Model.empty.withType ⟨"Rank", .complex, [], [], [⟨"Rank", [⟨"rank", .scalar .int⟩]⟩]⟩

/-- Notes with ranks, notes with tags, notes with ranks again, and places. -/
def rankedNotes : List Use :=
  [.planFor ⟨"Note", ["rank"]⟩, .planFor ⟨"Note", ["tag"]⟩, .planFor ⟨"Note", ["rank"]⟩,
    .planFor ⟨"Place", ["name"]⟩]

/-- Two plans are kept, the notes with tags are given up, and a rank that is made of a tag is refused. -/
theorem after_keeps_rankedNotes :
    let c := after ranks 2 rankedNotes
    c.keys = ["Place:name", "Note:rank"] ∧
      (⟨"Rank", ["tag"]⟩ : Request).planFrom ranks c =
        (.error (.materialization (.noConstructor "Rank" ["tag"])), { c with misses := 4 }) ∧
      c.entries.length + c.evictions = 3 ∧
      (ClockedCache.after ranks id 2 rankedNotes).Agrees c := by
  obtain ⟨hkeys, hfails, -, hbuilt, hclocked⟩ := after_keeps ranks 2 rankedNotes
  have hserved : served ranks 2 rankedNotes = ["Place:name", "Note:rank", "Note:tag", "Note:rank"] := by
    decide +kernel
  rw [hserved] at hkeys
  have hmisses : (after ranks 2 rankedNotes).misses = 3 := by decide +kernel
  have hrefused := hfails ⟨"Rank", ["tag"]⟩ _ (by decide +kernel) rfl
  rw [hmisses] at hrefused
  have hbuilds : (moments ranks (ofCapacity 2) rankedNotes).countP (Moment.builds ranks) = 3 := by
    decide +kernel
  exact ⟨hkeys.trans (by decide), hrefused, (hbuilt nofun).trans hbuilds, (hclocked id strictMono_id).1⟩

end PlanCache

end DocumentQuery
