import DocumentQuery.Instance.PlanCache
import DocumentQuery.Proofs.Instance.Constructors
import DocumentQuery.Proofs.Lists
import Mathlib.Data.List.Induction

/-!
# What the cache of plans returns

A plan is kept under a text that is made of a type and of its members in order. Whatever the cache was
asked for before, it returns the plan that is built for the members, or one that was built for an earlier
request with the same text (`PlanCache.planFor_after`). So the cache cannot be noticed as long as the
text tells requests apart (`PlanCache.planFor_transparent`). The order of the members need not be told
apart: whether there is a plan depends on which members there are only (`InstancePlan.exists_build_of_perm`).

The text tells requests apart when no type has a colon in its name and no member a comma
(`PlanCache.eq_and_perm_of_key_eq`). Where it fails to, the cache returns a plan for other members
(`PlanCache.planFor_of_key_eq`).

What is kept under a text is an invariant of the entries (`PlanCache.planFor_spec`), for any property that is
true of the plans that are built. It is instantiated once, with “was built for a request with this text”, and
everything about the answers of a cache that was used follows from there.

## Main definitions

* `PlanCache.Request`, `PlanCache.Use` — what may be asked of a cache, and done with it
* `PlanCache.after` — a cache that was used
-/

namespace DocumentQuery

namespace PlanCache

/-! ## Keys -/

/-- The key of a plan begins with the name of the type. -/
theorem takeWhile_key {typeName : String} (h : ':' ∉ typeName.toList) (names : List String) :
    (key typeName names).toList.takeWhile (· != ':') = typeName.toList := by
  have hcolon : ":".toList = [':'] := rfl
  rw [key, String.toList_append, String.toList_append, List.append_assoc, hcolon,
    List.takeWhile_append_of_pos fun c hc => by simpa using fun he : c = ':' => h (he ▸ hc)]
  simp

/-- Joined texts can be taken apart again; one empty text and no text are joined alike. -/
theorem eq_of_intercalate_eq {α : Type} [BEq α] [LawfulBEq α] {separator : α}
    {texts texts' : List (List α)} (h : ∀ text ∈ texts, separator ∉ text)
    (h' : ∀ text ∈ texts', separator ∉ text) (hone : texts ≠ [[]]) (hone' : texts' ≠ [[]])
    (hjoined : [separator].intercalate texts = [separator].intercalate texts') : texts = texts' := by
  have hsplit := congrArg (List.splitOn separator) hjoined
  cases texts with
  | nil =>
    cases texts' with
    | nil => rfl
    | cons text texts' =>
      rw [List.splitOn_intercalate separator h' (List.cons_ne_nil _ _)] at hsplit
      exact absurd hsplit.symm hone'
  | cons text texts =>
    rw [List.splitOn_intercalate separator h (List.cons_ne_nil _ _)] at hsplit
    cases texts' with
    | nil => exact absurd hsplit hone
    | cons text' texts' =>
      rw [hsplit, List.splitOn_intercalate separator h' (List.cons_ne_nil _ _)]

/-- The key tells requests apart when no type has a colon in its name and no member a comma. Only one
member without a name has the key of no member at all. -/
theorem eq_and_perm_of_key_eq {typeName typeName' : String} {names names' : List String}
    (htype : ':' ∉ typeName.toList) (htype' : ':' ∉ typeName'.toList)
    (hnames : ∀ name ∈ names, ',' ∉ name.toList) (hnames' : ∀ name ∈ names', ',' ∉ name.toList)
    (hone : names ≠ [""]) (hone' : names' ≠ [""]) (h : key typeName names = key typeName' names') :
    typeName = typeName' ∧ names.Perm names' := by
  have hsame : typeName = typeName' := by
    rw [← String.toList_inj, ← takeWhile_key htype names, h, takeWhile_key htype' names']
  subst hsame
  refine ⟨rfl, ?_⟩
  have hinjective : Function.Injective String.toList := fun _ _ => String.toList_injective
  let texts := fun names : List String => (names.mergeSort fun a b => decide (a ≤ b)).map String.toList
  -- behind the type the keys are the sorted names, with commas between them
  have hjoined : [','].intercalate (texts names) = [','].intercalate (texts names') := by
    have hkey := congrArg String.toList h
    simp only [key, String.toList_append, String.toList_intercalate] at hkey
    exact List.append_cancel_left hkey
  have hcommas : ∀ {names : List String}, (∀ name ∈ names, ',' ∉ name.toList) →
      ∀ text ∈ texts names, ',' ∉ text := by
    intro names hnames text htext
    obtain ⟨name, hname, rfl⟩ := List.mem_map.mp htext
    exact hnames name (List.mem_mergeSort.mp hname)
  have hempty : ∀ {names : List String}, names ≠ [""] → texts names ≠ [[]] := by
    intro names hone htexts
    have hsorted : names.mergeSort (fun a b => decide (a ≤ b)) = [""] :=
      List.map_injective_iff.mpr hinjective (htexts.trans rfl)
    exact hone (List.perm_singleton.mp (hsorted ▸ (List.mergeSort_perm names _).symm))
  have hsorted := List.map_injective_iff.mpr hinjective <|
    eq_of_intercalate_eq (hcommas hnames) (hcommas hnames') (hempty hone) (hempty hone') hjoined
  exact ((List.mergeSort_perm names _).symm.trans (hsorted ▸ List.mergeSort_perm names' _))

/-! ## Steps -/

/-- After a use, the entries are the used one and those from before. -/
theorem mem_touch {c : PlanCache} {key : String} {plan : InstancePlan}
    {entry : String × InstancePlan} (h : entry ∈ (c.touch key plan).entries) :
    entry = (key, plan) ∨ entry ∈ c.entries :=
  (List.mem_cons.mp h).imp_right fun h => (List.mem_filter.mp h).1

/-- Making room leaves no entry that was not there. -/
theorem mem_makeRoom {c : PlanCache} {entry : String × InstancePlan}
    (h : entry ∈ c.makeRoom.entries) : entry ∈ c.entries := by
  unfold makeRoom at h
  split at h
  · exact List.dropLast_subset _ h
  · exact h

/-- What may be kept under keys stays so, and it is true of the plan, if it is true of every plan that
is built for the members. -/
theorem planFor_spec {m : Model} {typeName : String} {names : List String} {c : PlanCache}
    {known : String → InstancePlan → Prop} (hc : ∀ entry ∈ c.entries, known entry.1 entry.2)
    (hbuild : ∀ plan, InstancePlan.build m typeName names = .ok plan → known (key typeName names) plan) :
    (∀ entry ∈ (planFor m typeName names c).2.entries, known entry.1 entry.2) ∧
      ∀ plan, (planFor m typeName names c).1 = .ok plan → known (key typeName names) plan := by
  simp only [planFor]
  cases hlookup : c.entries.lookup (key typeName names) with
  | some kept =>
    have hkept : known (key typeName names) kept := hc _ (mem_of_lookup hlookup)
    refine ⟨fun entry h => ?_, fun plan h => ?_⟩
    · rcases mem_touch h with rfl | h
      · exact hkept
      · exact hc entry h
    · cases h
      exact hkept
  | none =>
    cases hplan : InstancePlan.build m typeName names with
    | error e => exact ⟨hc, fun plan h => by cases h⟩
    | ok plan =>
      let counted : PlanCache := { c with misses := c.misses + 1 }
      refine ⟨fun entry (h : entry ∈ (counted.makeRoom.touch _ plan).entries) => ?_, fun plan' h => ?_⟩
      · rcases mem_touch h with rfl | h
        · exact hbuild plan hplan
        · have hkept : entry ∈ counted.entries := mem_makeRoom h
          exact hc entry hkept
      · cases h
        exact hbuild plan hplan

/-- The plan is built for the members, or it was kept under their key. -/
theorem planFor_cases (m : Model) (typeName : String) (names : List String) (c : PlanCache) :
    (planFor m typeName names c).1 = InstancePlan.build m typeName names ∨
      ∃ plan, (key typeName names, plan) ∈ c.entries ∧
        (planFor m typeName names c).1 = .ok plan := by
  simp only [planFor]
  cases hlookup : c.entries.lookup (key typeName names) with
  | some kept => exact .inr ⟨kept, mem_of_lookup hlookup, rfl⟩
  | none =>
    left
    cases InstancePlan.build m typeName names <;> rfl

/-! ## Caches that were used -/

/-- Members of a type, for which a plan is asked. The members are in the order in which the object has them,
and the text of the request is made without it. -/
structure Request where
  /-- The type of the object. -/
  typeName : String
  /-- The names of its members. -/
  names : List String

namespace Request

/-- The key of a request. -/
def key (r : Request) : String :=
  PlanCache.key r.typeName r.names

/-- The plan that is built for a request. -/
def build (m : Model) (r : Request) : Except Failure InstancePlan :=
  InstancePlan.build m r.typeName r.names

/-- The plan that a cache has for a request, and the cache then. -/
def planFrom (m : Model) (c : PlanCache) (r : Request) : Except Failure InstancePlan × PlanCache :=
  c.planFor m r.typeName r.names

end Request

/-- What may be done with a cache. -/
inductive Use where
  | planFor (request : Request)
  | clear

/-- The request of a use. -/
def Use.request? : Use → Option Request
  | .planFor r => some r
  | .clear => none

/-- A cache that was used once more. -/
def use (m : Model) (c : PlanCache) : Use → PlanCache
  | .planFor r => (r.planFrom m c).2
  | .clear => c.clear

/-- A cache of some capacity that was used. -/
def after (m : Model) (capacity : Nat) (uses : List Use) : PlanCache :=
  uses.foldl (use m) (ofCapacity capacity)

/-- A cache that was used and then once more was used one time more. -/
theorem after_concat (m : Model) (capacity : Nat) (uses : List Use) (last : Use) :
    after m capacity (uses ++ [last]) = (after m capacity uses).use m last := by
  rw [after, List.foldl_append]
  rfl

/-- Whatever is kept was built for a request under whose key it is kept. -/
theorem exists_request_of_mem_after {m : Model} {capacity : Nat} {uses : List Use}
    {entry : String × InstancePlan} (h : entry ∈ (after m capacity uses).entries) :
    ∃ r ∈ uses.filterMap Use.request?, r.key = entry.1 ∧ r.build m = .ok entry.2 := by
  induction uses using List.reverseRecOn generalizing entry with
  | nil => exact nomatch h
  | append_singleton uses last ih =>
    rw [after_concat] at h
    rw [List.filterMap_append]
    cases last with
    | clear => exact nomatch h
    | planFor r =>
      let known := fun key plan => ∃ r' ∈ uses.filterMap Use.request? ++ [r],
        r'.key = key ∧ r'.build m = .ok plan
      have hkept : ∀ entry ∈ (after m capacity uses).entries, known entry.1 entry.2 := by
        intro entry hentry
        obtain ⟨r', hr', hbuilt⟩ := ih hentry
        exact ⟨r', List.mem_append_left _ hr', hbuilt⟩
      have hbuild : ∀ plan, r.build m = .ok plan → known r.key plan := fun plan hplan =>
        ⟨r, List.mem_append_right _ List.mem_cons_self, rfl, hplan⟩
      exact (planFor_spec hkept hbuild).1 entry h

/-- A cache that was used returns the plan that is built for a request, or one that was built for an
earlier request with the same key. -/
theorem planFor_after (m : Model) (capacity : Nat) (uses : List Use) (r : Request) :
    (r.planFrom m (after m capacity uses)).1 = r.build m ∨
      ∃ r' ∈ uses.filterMap Use.request?, ∃ plan, r'.key = r.key ∧ r'.build m = .ok plan ∧
        (r.planFrom m (after m capacity uses)).1 = .ok plan := by
  rcases planFor_cases m r.typeName r.names (after m capacity uses) with h | ⟨plan, hplan, h⟩
  · exact .inl h
  · obtain ⟨r', hr', hkey, hbuild⟩ := exists_request_of_mem_after hplan
    exact .inr ⟨r', hr', plan, hkey, hbuild, h⟩

/-- The cache cannot be noticed where keys tell requests apart. If the key of a request was used only for the
same members of the same type so far, in whatever order, then the cache fails as building the plan fails, or
returns the plan that is built for these members in some order. It assigns none but them.

The hypothesis is about the requests so far and this one only, and it cannot be dropped (`planFor_ambiguous`).
Capacity, evictions and the clearing of the cache do not matter. -/
theorem planFor_transparent (m : Model) (capacity : Nat) (uses : List Use) (r : Request)
    (h : ∀ r' ∈ uses.filterMap Use.request?, r'.key = r.key →
      r'.typeName = r.typeName ∧ r'.names.Perm r.names) :
    (∀ e, r.build m = .error e → (r.planFrom m (after m capacity uses)).1 = .error e) ∧
      ∀ plan, r.build m = .ok plan → ∃ names plan', names.Perm r.names ∧
        InstancePlan.build m r.typeName names = .ok plan' ∧
        (r.planFrom m (after m capacity uses)).1 = .ok plan' ∧
        ∀ name ∈ plan'.assigned, name ∈ r.names := by
  rcases planFor_after m capacity uses r with hbuilt | ⟨⟨typeName, names⟩, hr', kept, hkey, hkept, hresult⟩
  · rw [hbuilt]
    exact ⟨fun e he => he, fun plan hplan =>
      ⟨r.names, plan, .refl _, hplan, hplan, fun name => InstancePlan.mem_of_mem_assigned hplan⟩⟩
  · obtain ⟨rfl, hperm⟩ := h _ hr' hkey
    refine ⟨fun e he => ?_, fun plan _ => ⟨names, kept, hperm, hkept, hresult, fun name hname => ?_⟩⟩
    · obtain ⟨plan, hplan⟩ := InstancePlan.exists_build_of_perm hperm hkept
      exact nomatch hplan.symm.trans he
    · exact hperm.mem_iff.mp (InstancePlan.mem_of_mem_assigned hkept hname)

/-- After the same members in another order and other members of the type, the members of notes are planned by
a plan for them. -/
theorem planFor_transparent_rank : ∃ names plan, names.Perm ["tag", "rank"] ∧
    InstancePlan.build .empty "Note" names = .ok plan ∧
    ((⟨"Note", ["tag", "rank"]⟩ : Request).planFrom .empty
      (after .empty 1 [.planFor ⟨"Note", ["rank", "tag"]⟩, .planFor ⟨"Note", ["rank"]⟩])).1 = .ok plan ∧
    ∀ name ∈ plan.assigned, name ∈ ["tag", "rank"] := by
  have hkeys : ∀ r ∈ [(⟨"Note", ["rank", "tag"]⟩ : Request), ⟨"Note", ["rank"]⟩],
      r.key = Request.key ⟨"Note", ["tag", "rank"]⟩ →
        r.typeName = "Note" ∧ r.names.Perm ["tag", "rank"] := by
    intro r hr hkey
    have hplain : ':' ∉ r.typeName.toList ∧ (∀ name ∈ r.names, ',' ∉ name.toList) ∧ r.names ≠ [""] := by
      clear hkey
      revert r
      decide
    exact eq_and_perm_of_key_eq hplain.1 (by decide) hplain.2.1 (by decide) hplain.2.2 (by decide) hkey
  exact (planFor_transparent .empty 1 [.planFor ⟨"Note", ["rank", "tag"]⟩, .planFor ⟨"Note", ["rank"]⟩]
    ⟨"Note", ["tag", "rank"]⟩ hkeys).2 (.settingAll "Note" ["tag", "rank"]) rfl

/-- After a request, a cache returns its plan for every other one with the same key. A type that the model
lacks has another plan for other members. -/
theorem planFor_of_key_eq {r r' : Request} (capacity : Nat) (hkey : r'.key = r.key)
    (hne : ¬ (r'.typeName = r.typeName ∧ r'.names.Perm r.names)) :
    (r.planFrom .empty (after .empty capacity [.planFor r'])).1 =
        .ok (.settingAll r'.typeName r'.names) ∧
      ∀ names, names.Perm r.names →
        InstancePlan.build .empty r.typeName names ≠ .ok (.settingAll r'.typeName r'.names) := by
  have hentries : (after .empty capacity [.planFor r']).entries =
      [(r'.key, .settingAll r'.typeName r'.names)] := by
    show (PlanCache.touch (makeRoom { ofCapacity capacity with misses := 1 }) _ _).entries = _
    unfold makeRoom
    split <;> rfl
  refine ⟨?_, fun names hperm hbuild => hne ?_⟩
  · have hlookup : (after .empty capacity [.planFor r']).entries.lookup (key r.typeName r.names) =
        some (.settingAll r'.typeName r'.names) := by
      rw [hentries, hkey]
      exact List.lookup_cons_self
    simp only [Request.planFrom, planFor, hlookup]
  · have hsame : InstancePlan.settingAll r.typeName names = .settingAll r'.typeName r'.names :=
      Except.ok.inj hbuild
    have hnames : names = r'.names := congrArg InstancePlan.setters hsame
    exact ⟨(congrArg InstancePlan.typeName hsame).symm, hnames ▸ hperm⟩

/-- A member with a comma in its name has the key of two members, and the plan for it is returned for
them. -/
theorem planFor_ambiguous :
    ((⟨"Note", ["rank", "tag"]⟩ : Request).planFrom .empty
      (after .empty 10 [.planFor ⟨"Note", ["rank,tag"]⟩])).1 = .ok (.settingAll "Note" ["rank,tag"]) ∧
    ∀ names, names.Perm ["rank", "tag"] →
      InstancePlan.build .empty "Note" names ≠ .ok (.settingAll "Note" ["rank,tag"]) := by
  have hkey : Request.key ⟨"Note", ["rank,tag"]⟩ = Request.key ⟨"Note", ["rank", "tag"]⟩ := by
    have hsorted : ∀ {names : List String}, names.Pairwise (fun a b => decide (a ≤ b) = true) →
        key "Note" names = "Note:" ++ String.intercalate "," names := by
      intro names h
      rw [key, List.mergeSort_of_pairwise h]
      rfl
    show key "Note" ["rank,tag"] = key "Note" ["rank", "tag"]
    rw [hsorted (by decide), hsorted (by decide)]
    decide
  exact planFor_of_key_eq 10 hkey fun h => absurd h.2.length_eq (by decide)

end PlanCache

end DocumentQuery
