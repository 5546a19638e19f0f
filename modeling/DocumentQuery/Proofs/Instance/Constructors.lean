import DocumentQuery.Instance.Plan
import DocumentQuery.Proofs.Lists
import DocumentQuery.Proofs.Success
import Mathlib.Data.List.Dedup

/-!
# Which constructor makes an instance

A plan is found by trying the constructors of a type on the members there are. What it has to be can be said
without trying (`InstancePlan.PlansFor`): each parameter of the constructor is paired with a member of its
name, upper and lower case aside; no constructor for which that can be done has more parameters; and every
member is taken by arguments, set afterwards or skipped, the last only if it belongs to a read-only property
and no argument takes it. A member may be taken by several arguments, because parameters whose names differ
in case alone find the same one.

There is such a plan unless the type has constructors and none of them finds all its members. Then there is
no plan, and the failure names the type and the members (`InstancePlan.build_plansFor`). So whether there is
a plan does not depend on the order of the members (`InstancePlan.exists_build_of_perm`), though which one it
is may.

Ties are decided by the place of declaration: of the constructors with most parameters the last one is used.
The specification says so by splitting the list of constructors at the one that is used, with “at most as
many” before it and “fewer” after it; a specification by the maximum alone would leave the choice open.

## Main definitions

* `ConstructorDecl.FindsMembers`, `ConstructorDecl.Takes` — constructors that can be used, and with what
* `InstancePlan.PlansFor` — plans for members of a type
-/

namespace DocumentQuery

/-! ## Parameters and members -/

namespace ConstructorDecl

variable {c : ConstructorDecl} {names : List String} {arguments : List (String × String)}

/-- Whether every parameter finds a member of its name, upper and lower case aside. -/
def FindsMembers (c : ConstructorDecl) (names : List String) : Prop :=
  ∀ p ∈ c.parameters, ∃ name ∈ names, name.toLower = p.name.toLower

/-- Whether arguments pair every parameter, in order, with a member of its name. An argument is the name of
the parameter and the name of the member. -/
def Takes (c : ConstructorDecl) (names : List String) (arguments : List (String × String)) : Prop :=
  List.Forall₂ (fun p a => a.1 = p.name ∧ a.2 ∈ names ∧ a.2.toLower = p.name.toLower) c.parameters
    arguments

/-- Two names are the same if they are when written in lower case. -/
theorem sameName_iff {a b : String} : sameName a b = true ↔ a.toLower = b.toLower := by
  show (_ == _) = true ↔ a.map Char.toLower = b.map Char.toLower
  rw [beq_iff_eq, ← String.toList_inj, String.toList_map, String.toList_map]

/-- Which parameters find members does not depend on the order of the members. -/
theorem FindsMembers.perm {names' : List String} (h : c.FindsMembers names) (hperm : names.Perm names') :
    c.FindsMembers names' := by
  intro p hp
  obtain ⟨name, hname, hsame⟩ := h p hp
  exact ⟨name, hperm.mem_iff.mp hname, hsame⟩

/-- There are arguments for a constructor exactly if all its parameters find members. -/
theorem findsMembers_iff : c.FindsMembers names ↔ (c.arguments? names).isSome = true := by
  have hfind : ∀ p : ParameterDecl, ((names.find? (sameName · p.name)).map (p.name, ·)).isSome = true ↔
      ∃ name ∈ names, name.toLower = p.name.toLower := by
    intro p
    simp only [Option.isSome_map, List.find?_isSome, sameName_iff]
  unfold arguments? FindsMembers
  induction c.parameters with
  | nil => exact ⟨fun _ => rfl, fun _ _ hp => (nomatch hp)⟩
  | cons p ps ih =>
    rw [List.mapM_cons, List.forall_mem_cons, ← hfind p]
    refine (and_congr_right fun _ => ih).trans ?_
    cases (names.find? (sameName · p.name)).map (p.name, ·) with
    | none => simp
    | some argument =>
      cases ps.mapM fun p => (names.find? (sameName · p.name)).map (p.name, ·) <;> simp

/-- The arguments of a constructor are members that its parameters find. -/
theorem takes_of_arguments? (h : c.arguments? names = some arguments) : c.Takes names arguments := by
  unfold arguments? at h
  unfold Takes
  generalize c.parameters = ps at h
  induction ps generalizing arguments with
  | nil =>
    cases h
    exact .nil
  | cons p ps ih =>
    rw [List.mapM_cons] at h
    obtain ⟨first, hfirst, h⟩ := Option.bind_eq_some_iff.mp h
    obtain ⟨rest, hrest, h⟩ := Option.bind_eq_some_iff.mp h
    cases h
    obtain ⟨name, hname, rfl⟩ := Option.map_eq_some_iff.mp hfirst
    have hsame : sameName name p.name = true := by simpa using List.find?_some hname
    exact .cons ⟨rfl, List.mem_of_find?_eq_some hname, sameName_iff.mp hsame⟩ (ih hrest)

end ConstructorDecl

/-! ## The choice among constructors -/

namespace TypeDecl

variable {t : TypeDecl} {names : List String}

/-- There is none with most arguments only if there is none at all. -/
theorem mostArguments?_eq_none {candidates : List (ConstructorDecl × List (String × String))} :
    mostArguments? candidates = none ↔ candidates = [] := by
  cases candidates with
  | nil => exact ⟨fun _ => rfl, fun _ => rfl⟩
  | cons c cs =>
    unfold mostArguments?
    constructor
    · intro h
      split at h
      · split at h <;> cases h
      · cases h
    · exact nofun

/-- The last of those with most arguments has no fewer than those before it, and more than those after. -/
theorem mostArguments?_eq_some {candidates : List (ConstructorDecl × List (String × String))}
    {best : ConstructorDecl × List (String × String)} (h : mostArguments? candidates = some best) :
    ∃ before after, candidates = before ++ best :: after ∧
      (∀ c ∈ before, c.2.length ≤ best.2.length) ∧ ∀ c ∈ after, c.2.length < best.2.length := by
  induction candidates generalizing best with
  | nil => exact nomatch h
  | cons c cs ih =>
    unfold mostArguments? at h
    split at h
    next best' hbest =>
      obtain ⟨before, after, rfl, hbefore, hafter⟩ := ih hbest
      split at h
      next hlt =>
        cases h
        refine ⟨[], before ++ best' :: after, rfl, nofun, fun c' hc' => ?_⟩
        rcases List.mem_append.mp hc' with hc' | hc'
        · exact Nat.lt_of_le_of_lt (hbefore c' hc') hlt
        · rcases List.mem_cons.mp hc' with rfl | hc'
          · exact hlt
          · exact Nat.lt_trans (hafter c' hc') hlt
      next hle =>
        cases h
        exact ⟨c :: before, after, rfl, List.forall_mem_cons.mpr ⟨Nat.not_lt.mp hle, hbefore⟩, hafter⟩
    next hnone =>
      cases h
      rw [mostArguments?_eq_none.mp hnone]
      exact ⟨[], [], rfl, nofun, nofun⟩

/-- A constructor that can be used takes as many arguments as it has parameters. -/
theorem exists_usable {constructors : List ConstructorDecl} {c : ConstructorDecl}
    (hc : c ∈ constructors) (h : c.FindsMembers names) :
    ∃ arguments, (c, arguments) ∈ constructors.filterMap (fun c => (c.arguments? names).map (c, ·)) ∧
      arguments.length = c.parameters.length := by
  obtain ⟨arguments, harguments⟩ := Option.isSome_iff_exists.mp (ConstructorDecl.findsMembers_iff.mp h)
  refine ⟨arguments, List.mem_filterMap.mpr ⟨c, hc, by rw [harguments]; rfl⟩, ?_⟩
  exact (ConstructorDecl.takes_of_arguments? harguments).length_eq.symm

/-- The constructor to use has as many parameters as any that can be used, and more than those declared
after it. -/
theorem chooseConstructor_eq_ok {constructor? : Option String} {arguments : List (String × String)}
    (hne : t.constructors ≠ []) (h : t.chooseConstructor names = .ok (constructor?, arguments)) :
    ∃ before c after, t.constructors = before ++ c :: after ∧ constructor? = some c.name ∧
      c.Takes names arguments ∧
      (∀ c' ∈ before, c'.FindsMembers names → c'.parameters.length ≤ c.parameters.length) ∧
      ∀ c' ∈ after, c'.FindsMembers names → c'.parameters.length < c.parameters.length := by
  unfold chooseConstructor at h
  rw [if_neg fun hnil => hne (List.isEmpty_iff.mp hnil)] at h
  split at h
  next c arguments' hmost =>
    cases h
    -- the choice is among the constructors that can be used; it is carried over to all of them
    obtain ⟨before, after, husable, hbefore, hafter⟩ := mostArguments?_eq_some hmost
    obtain ⟨first, rest, hconstructors, hfirst, hrest⟩ := List.filterMap_eq_append_iff.mp husable
    obtain ⟨unusable, c', last, rfl, hunusable, hc', hlast⟩ := List.filterMap_eq_cons_iff.mp hrest
    obtain ⟨_, harguments, heq⟩ := Option.map_eq_some_iff.mp hc'
    cases heq
    have htakes : c.Takes names arguments := ConstructorDecl.takes_of_arguments? harguments
    refine ⟨first ++ unusable, c, last, by rw [hconstructors, List.append_assoc], rfl, htakes,
      fun c' hc' hfinds => ?_, fun c' hc' hfinds => ?_⟩
    · rw [htakes.length_eq]
      rcases List.mem_append.mp hc' with hc' | hc'
      · obtain ⟨arguments', hmem, hlength⟩ := exists_usable hc' hfinds
        rw [← hlength]
        exact hbefore _ (hfirst ▸ hmem)
      · obtain ⟨_, harguments'⟩ :=
          Option.isSome_iff_exists.mp (ConstructorDecl.findsMembers_iff.mp hfinds)
        have hnone := hunusable c' hc'
        rw [harguments'] at hnone
        exact nomatch hnone
    · obtain ⟨arguments', hmem, hlength⟩ := exists_usable hc' hfinds
      rw [htakes.length_eq, ← hlength]
      exact hafter _ (hlast ▸ hmem)
  next => exact nomatch h

/-- The arguments of the constructor to use are members. -/
theorem mem_of_chooseConstructor {choice : Option String × List (String × String)}
    (h : t.chooseConstructor names = .ok choice) {argument : String × String}
    (ha : argument ∈ choice.2) : argument.2 ∈ names := by
  by_cases hnil : t.constructors = []
  · unfold chooseConstructor at h
    rw [if_pos (List.isEmpty_iff.mpr hnil)] at h
    cases h
    cases ha
  · obtain ⟨-, c, -, -, -, htakes, -⟩ := chooseConstructor_eq_ok hnil h
    obtain ⟨p, -, -, hmem, -⟩ := exists_of_forall₂ (List.Forall₂.flip htakes) ha
    exact hmem

/-- There is a constructor to use if there is none at all, or if one finds its members. -/
theorem exists_chooseConstructor_iff : (∃ choice, t.chooseConstructor names = .ok choice) ↔
    t.constructors = [] ∨ ∃ c ∈ t.constructors, c.FindsMembers names := by
  have husable : t.usableConstructors names ≠ [] ↔ ∃ c ∈ t.constructors, c.FindsMembers names := by
    simp only [usableConstructors, ne_eq, List.filterMap_eq_nil_iff, not_forall, Option.map_eq_none_iff,
      ConstructorDecl.findsMembers_iff, Option.isSome_iff_ne_none, exists_prop]
  unfold chooseConstructor
  rw [← husable]
  by_cases hnone : t.constructors = []
  · rw [if_pos (List.isEmpty_iff.mpr hnone)]
    exact ⟨fun _ => .inl hnone, fun _ => ⟨_, rfl⟩⟩
  · rw [if_neg fun h => hnone (List.isEmpty_iff.mp h)]
    cases hmost : mostArguments? (t.usableConstructors names) with
    | none =>
      have hempty := mostArguments?_eq_none.mp hmost
      exact ⟨fun ⟨_, h⟩ => (nomatch h), fun h => (h.elim hnone fun husable => husable hempty).elim⟩
    | some best =>
      refine ⟨fun _ => .inr fun hempty => ?_, fun _ => ⟨_, rfl⟩⟩
      rw [mostArguments?_eq_none.mpr hempty] at hmost
      exact nomatch hmost

/-- There is no constructor to use if there are some and none of them finds its members. -/
theorem chooseConstructor_eq_error {e : Failure} : t.chooseConstructor names = .error e ↔
    e = .materialization (.noConstructor t.name names) ∧ t.constructors ≠ [] ∧
      ∀ c ∈ t.constructors, ¬ c.FindsMembers names := by
  have hok := @exists_chooseConstructor_iff t names
  have herror : ∀ e, t.chooseConstructor names = .error e →
      e = .materialization (.noConstructor t.name names) := by
    intro e he
    unfold chooseConstructor at he
    split at he
    · exact nomatch he
    · split at he
      · exact nomatch he
      · cases he
        rfl
  -- which constructors fail is known from which succeed, since there is no other way to fail
  cases hchoice : t.chooseConstructor names with
  | ok choice =>
    refine ⟨fun he => (nomatch he), fun ⟨_, hne, hnone⟩ => ?_⟩
    rcases hok.mp ⟨choice, hchoice⟩ with hnil | ⟨c, hc, hfinds⟩
    · exact absurd hnil hne
    · exact absurd hfinds (hnone c hc)
  | error e' =>
    have hnot : ¬ ∃ choice, t.chooseConstructor names = .ok choice := by
      rintro ⟨choice, h⟩
      exact nomatch hchoice.symm.trans h
    rw [hok, not_or] at hnot
    obtain rfl := herror e' hchoice
    refine ⟨fun he => ⟨(Except.error.inj he).symm, hnot.1, fun c hc hfinds => hnot.2 ⟨c, hc, hfinds⟩⟩, ?_⟩
    rintro ⟨rfl, -⟩
    rfl

/-- A member cannot be set if its property is read-only. A member without a property can be. -/
theorem isSettable_eq_false_iff {name : String} :
    t.isSettable name = false ↔ ∃ p, t.property? name = some p ∧ p.settable = false := by
  unfold isSettable
  cases t.property? name <;> simp

end TypeDecl

/-! ## Plans -/

namespace InstancePlan

variable {m : Model} {typeName : String} {type : TypeDecl} {names : List String} {plan : InstancePlan}

/-- The members that arguments take. -/
def taken (plan : InstancePlan) : List String :=
  plan.arguments.map Prod.snd

/-- Plans for members of a type, said without trying constructors. The four parts say which constructor is
used, what it takes, and what becomes of the members it does not take. -/
structure PlansFor (type : TypeDecl) (names : List String) (plan : InstancePlan) : Prop where
  /-- A type without constructors is made without arguments. -/
  bare : type.constructors = [] → plan.constructor? = none ∧ plan.arguments = []
  /-- The constructor finds its members; no other one that does has more parameters, and none declared
  later has as many. -/
  constructed : type.constructors ≠ [] → ∃ before c after, type.constructors = before ++ c :: after ∧
    plan.constructor? = some c.name ∧ c.Takes names plan.arguments ∧
    (∀ c' ∈ before, c'.FindsMembers names → c'.parameters.length ≤ c.parameters.length) ∧
    ∀ c' ∈ after, c'.FindsMembers names → c'.parameters.length < c.parameters.length
  /-- Every member is in one of the three places, and nothing else is. -/
  routed : (plan.taken.dedup ++ plan.setters ++ plan.skipped).Perm names
  /-- Skipped are the members of read-only properties that no argument takes. -/
  skipped : ∀ name, name ∈ plan.skipped ↔ name ∈ names ∧ name ∉ plan.taken ∧
    ∃ p, type.property? name = some p ∧ p.settable = false

/-- A plan has the constructor that was chosen, and the rest of the members is divided by whether they can be
set. -/
theorem build_eq_ok (htype : m.type? typeName = some type) (h : build m typeName names = .ok plan) :
    type.chooseConstructor names = .ok (plan.constructor?, plan.arguments) ∧
      plan.setters = (names.filter (· ∉ plan.taken)).filter type.isSettable ∧
      plan.skipped = (names.filter (· ∉ plan.taken)).filter (!type.isSettable ·) := by
  unfold build at h
  rw [htype] at h
  obtain ⟨choice, hchoice, h⟩ := Except.bind_eq_ok.mp h
  cases h
  have hothers : (fun name => !(choice.2.any (·.2 == name))) =
      fun name => decide (name ∉ choice.2.map Prod.snd) := by
    funext name
    rw [Bool.eq_iff_iff]
    simp only [Bool.not_eq_true', List.any_eq_false, beq_iff_eq, decide_eq_true_eq, List.mem_map,
      not_exists, not_and]
  refine ⟨hchoice, ?_, ?_⟩
  · exact congrArg (fun others => (names.filter others).filter type.isSettable) hothers
  · exact congrArg (fun others => (names.filter others).filter (!type.isSettable ·)) hothers

theorem build_eq_error (htype : m.type? typeName = some type) {e : Failure} :
    build m typeName names = .error e ↔ type.chooseConstructor names = .error e := by
  unfold build
  rw [htype]
  refine Except.bind_eq_error.trans ⟨fun h => ?_, Or.inl⟩
  rcases h with h | ⟨_, _, h⟩
  · exact h
  · exact nomatch h

/-- A plan cannot be built only because no constructor finds its members. -/
theorem noConstructor_of_build {e : Failure} (h : build m typeName names = .error e) :
    ∃ type, m.type? typeName = some type ∧ e = .materialization (.noConstructor type.name names) := by
  cases htype : m.type? typeName with
  | none =>
    unfold build at h
    rw [htype] at h
    exact nomatch h
  | some type =>
    exact ⟨type, rfl, (TypeDecl.chooseConstructor_eq_error.mp ((build_eq_error htype).mp h)).1⟩

/-- A plan can be built for members in one order if it can be in another. -/
theorem exists_build_of_perm {names' : List String} (hperm : names.Perm names')
    (h : build m typeName names = .ok plan) : ∃ plan', build m typeName names' = .ok plan' := by
  unfold build at h ⊢
  cases htype : m.type? typeName with
  | none => exact ⟨_, rfl⟩
  | some type =>
    rw [htype] at h
    obtain ⟨choice, hchoice, -⟩ := Except.bind_eq_ok.mp h
    have hfinds := TypeDecl.exists_chooseConstructor_iff.mp ⟨choice, hchoice⟩
    obtain ⟨choice', hchoice'⟩ := TypeDecl.exists_chooseConstructor_iff.mpr
      (hfinds.imp_right fun ⟨c, hc, h⟩ => ⟨c, hc, h.perm hperm⟩)
    exact ⟨_, Except.bind_eq_ok.mpr ⟨choice', hchoice', rfl⟩⟩

/-- A plan assigns only members it is built for. -/
theorem mem_of_mem_assigned (h : build m typeName names = .ok plan) {name : String}
    (hname : name ∈ plan.assigned) : name ∈ names := by
  cases htype : m.type? typeName with
  | none =>
    unfold build at h
    rw [htype] at h
    cases h
    exact hname
  | some type =>
    obtain ⟨hchoice, hsetters, -⟩ := build_eq_ok htype h
    rcases List.mem_append.mp hname with harguments | hset
    · obtain ⟨argument, hargument, rfl⟩ := List.mem_map.mp harguments
      exact TypeDecl.mem_of_chooseConstructor hchoice hargument
    · rw [hsetters] at hset
      exact List.mem_of_mem_filter (List.mem_of_mem_filter hset)

/-- The members are divided among arguments, setters and what is skipped. -/
theorem perm_of_taken {p : String → Bool} {taken : List String} (hnames : names.Nodup)
    (htaken : ∀ name ∈ taken, name ∈ names) :
    (taken.dedup ++ (names.filter (· ∉ taken)).filter p ++
      (names.filter (· ∉ taken)).filter (!p ·)).Perm names := by
  have hothers : ((names.filter (· ∉ taken)).filter p ++ (names.filter (· ∉ taken)).filter (!p ·)).Perm
      (names.filter (· ∉ taken)) := List.filter_append_perm p _
  have hdedup : taken.dedup.Perm (names.filter (· ∈ taken)) := by
    refine (List.perm_ext_iff_of_nodup taken.nodup_dedup (hnames.filter _)).mpr fun name => ?_
    simp only [List.mem_dedup, List.mem_filter, decide_eq_true_eq]
    exact ⟨fun h => ⟨htaken name h, h⟩, And.right⟩
  rw [List.append_assoc]
  refine (hdedup.append hothers).trans ?_
  simpa using List.filter_append_perm (· ∈ taken) names

/-- There is a plan for members of a type, with the constructor that takes most of them, unless the type has
constructors and none of them finds its members.

The members have different names, as the names of an object have; otherwise nothing is assumed. Several
parameters may take one member, and several constructors may have one name. -/
theorem build_plansFor (htype : m.type? typeName = some type) (hnames : names.Nodup) :
    (∀ e, build m typeName names = .error e ↔
      e = .materialization (.noConstructor type.name names) ∧ type.constructors ≠ [] ∧
        ∀ c ∈ type.constructors, ¬ c.FindsMembers names) ∧
      ∀ plan, build m typeName names = .ok plan → plan.PlansFor type names := by
  refine ⟨fun e => (build_eq_error htype).trans TypeDecl.chooseConstructor_eq_error, fun plan hbuild => ?_⟩
  obtain ⟨hchoice, hsetters, hskipped⟩ := build_eq_ok htype hbuild
  refine ⟨fun hnil => ?_, fun hne => TypeDecl.chooseConstructor_eq_ok hne hchoice, ?_, fun name => ?_⟩
  · unfold TypeDecl.chooseConstructor at hchoice
    rw [if_pos (List.isEmpty_iff.mpr hnil)] at hchoice
    obtain ⟨hconstructor, harguments⟩ := Prod.mk.inj (Except.ok.inj hchoice)
    exact ⟨hconstructor.symm, harguments.symm⟩
  · rw [hsetters, hskipped]
    refine perm_of_taken hnames fun name hname => ?_
    exact mem_of_mem_assigned hbuild (List.mem_append_left _ hname)
  · rw [hskipped, List.mem_filter, List.mem_filter, decide_eq_true_eq, Bool.not_eq_true',
      TypeDecl.isSettable_eq_false_iff, and_assoc]

end InstancePlan

/-- The type of amounts of money. Two of its constructors have as many parameters, and those of the last one
find the same member. -/
def TypeDecl.money : TypeDecl where
  name := "Money"
  kind := .complex
  properties :=
    [(Property.named "Amount" (.scalar .float)).readOnly,
      (Property.named "Currency" (.scalar .string)).readOnly, .named "Note" (.scalar .string)]
  navigations := []
  constructors :=
    [⟨"Money", []⟩,
      ⟨"Money.of", [⟨"amount", .scalar .float⟩, ⟨"currency", .scalar .string⟩]⟩,
      ⟨"Money.between", [⟨"amount", .scalar .float⟩, ⟨"AMOUNT", .scalar .float⟩]⟩,
      ⟨"Money.rated", [⟨"amount", .scalar .float⟩, ⟨"rate", .scalar .float⟩, ⟨"note", .scalar .string⟩]⟩]

namespace InstancePlan

/-- Of the constructors that find their members the last one with two parameters is used, and both parameters
take the same member. The currency is left over and cannot be set. -/
theorem build_plansFor_money : ∃ plan, build (Model.empty.withType .money) "Money"
      ["Amount", "Currency", "Note"] = .ok plan ∧
    plan.constructor? = some "Money.between" ∧ plan.taken = ["Amount", "Amount"] ∧
    plan.setters = ["Note"] ∧ plan.skipped = ["Currency"] ∧
    plan.PlansFor .money ["Amount", "Currency", "Note"] := by
  have hplan : ∃ plan, build (Model.empty.withType .money) "Money" ["Amount", "Currency", "Note"] =
      .ok plan ∧ plan.constructor? = some "Money.between" ∧ plan.taken = ["Amount", "Amount"] ∧
        plan.setters = ["Note"] ∧ plan.skipped = ["Currency"] := ⟨_, rfl, rfl, rfl, rfl, rfl⟩
  obtain ⟨plan, hbuild, hconstructor, htaken, hsetters, hskipped⟩ := hplan
  exact ⟨plan, hbuild, hconstructor, htaken, hsetters, hskipped,
    (build_plansFor rfl (by decide)).2 plan hbuild⟩

end InstancePlan

end DocumentQuery
