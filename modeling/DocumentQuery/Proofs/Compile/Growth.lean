import DocumentQuery.Proofs.Compile.Trees

/-!
# Trees that grow

An include tree grows by insertions, one navigation at a time, each below one that is there already
(`Insertion.Grounded`). What it is in the end depends on the insertions alone and not on their order
(`Inclusion.Holds.shuffled`): it has the navigations that were put into it, and each of them has the
restrictions it was given (`Inclusion.Holds`). A tree grows unless a navigation is restricted in two ways
(`Inclusion.Holds.run`, `Inclusion.Holds.exists_run`), and this too does not depend on the order.

The invariant is said path by path. What is found under one path stands for all that was put there
(`Inclusion.Stands`), and an insertion leaves what is found under every other path. So the tree itself is
opened in two places only, where its levels are looked at for the navigation that is put in, and the induction
over the insertions is one over a list.

## Main definitions

* `Insertion` — a navigation and where it is put
* `Insertion.Consistent` — insertions that do not restrict a navigation in two ways
* `Inclusion.Holds` — trees that hold what was put into them
-/

namespace DocumentQuery

/-! ## Growing trees -/

/-- A navigation and the path below which it is put into a tree. The navigation comes without anything below
it; what is to be below is put there by later insertions. -/
structure Insertion where
  parent : List String
  inclusion : Inclusion

namespace Insertion

/-- The path to the navigation. -/
def path (s : Insertion) : List String :=
  s.parent ++ [s.inclusion.navigation]

/-- Puts the navigation into a tree. -/
def run (tree : List Inclusion) (s : Insertion) : Except QueryError (List Inclusion) :=
  s.inclusion.insertAt s.parent tree

/-- Insertions below navigations that are there, given the paths to those that are there already. -/
def Grounded (known : List (List String)) : List Insertion → Prop
  | [] => True
  | s :: steps => (s.parent = [] ∨ s.parent ∈ known) ∧ Grounded (known ++ [s.path]) steps

/-- Insertions none of which restricts a navigation in another way than another one does. An insertion without
restrictions is consistent with every other, since it does not ask for all targets but for the navigation. -/
def Consistent (steps : List Insertion) : Prop :=
  ∀ s ∈ steps, ∀ s' ∈ steps, s.path = s'.path → s.inclusion.Agrees s'.inclusion

variable {known known' : List (List String)} {s : Insertion} {steps steps' : List Insertion}

/-- The path of an insertion ends with the name of its navigation. -/
theorem path_eq_concat {parent : List String} {name : String} :
    s.path = parent ++ [name] ↔ s.parent = parent ∧ s.inclusion.navigation = name := by
  constructor
  · intro h
    obtain ⟨hparent, hname⟩ := List.append_inj' h rfl
    exact ⟨hparent, List.singleton_inj.mp hname⟩
  · rintro ⟨rfl, rfl⟩
    rfl

/-- Insertions are grounded one part after the other: what the first part puts in is there for the second. -/
theorem grounded_append :
    Grounded known (steps ++ steps') ↔
      Grounded known steps ∧ Grounded (known ++ steps.map path) steps' := by
  induction steps generalizing known with
  | nil => simp [Grounded]
  | cons s steps ih => simp [Grounded, ih, and_assoc]

end Insertion

namespace Inclusion

variable {s : Insertion} {steps steps' : List Insertion} {i i' : Inclusion} {tree tree' : List Inclusion}

/-- What is found under a path stands for all that was put there. It does not depend on the order of the
insertions, except through the choice among restrictions that are the same. -/
structure Stands (steps : List Insertion) (path : List String) (found : Option Inclusion) : Prop where
  /-- Something is there exactly if something was put there. -/
  present : found.isSome ↔ ∃ s ∈ steps, s.path = path
  /-- Its restrictions, if it has any, were put there. -/
  carried : ∀ i, found = some i → i.isRestricted = true →
    ∃ s ∈ steps, s.path = path ∧ s.inclusion = i
  /-- Whatever restrictions were put there are the same as its own. -/
  agreed : ∀ i, found = some i → ∀ s ∈ steps, s.path = path → s.inclusion.isRestricted = true →
    i.sameRestrictions s.inclusion = true

namespace Stands

variable {path : List String} {found found' : Option Inclusion}

/-- What is put elsewhere makes no difference. -/
theorem concat_of_ne (h : Stands steps path found) (hne : s.path ≠ path) :
    Stands (steps ++ [s]) path found where
  present := by
    rw [h.present]
    refine exists_congr fun s' => ?_
    rw [List.mem_append, List.mem_singleton, or_and_right]
    exact (or_iff_left fun ⟨heq, hpath⟩ => hne (heq ▸ hpath)).symm
  carried i hi hrestricted := by
    obtain ⟨s', hs', hrest⟩ := h.carried i hi hrestricted
    exact ⟨s', List.mem_append_left _ hs', hrest⟩
  agreed i hi s' hs' hpath hrestricted := by
    rcases List.mem_append.mp hs' with hs' | hs'
    · exact h.agreed i hi s' hs' hpath hrestricted
    · exact absurd (List.mem_singleton.mp hs' ▸ hpath) hne

/-- What is put under the path stands for everything from then on, if it agrees with what was there. -/
theorem concat_self (h : Stands steps s.path found) (ha : ∀ e, found = some e → e.Agrees s.inclusion) :
    Stands (steps ++ [s]) s.path (some (s.inclusion.standing found)) where
  present := iff_of_true rfl ⟨s, List.mem_append_right _ (List.mem_singleton_self s), rfl⟩
  carried i hi hrestricted := by
    have hlast : s ∈ steps ++ [s] := List.mem_append_right _ (List.mem_singleton_self s)
    cases hi
    cases hs : s.inclusion.isRestricted with
    | true => exact ⟨s, hlast, rfl, (standing_of_restricted hs found).symm⟩
    | false =>
      rw [standing_of_unrestricted hs] at hrestricted ⊢
      cases found with
      | none => exact ⟨s, hlast, rfl, rfl⟩
      | some e =>
        obtain ⟨s', hs', hrest⟩ := h.carried e rfl hrestricted
        exact ⟨s', List.mem_append_left _ hs', hrest⟩
  agreed i hi s' hs' hpath hrestricted := by
    cases hi
    rcases List.mem_append.mp hs' with hs' | hs'
    · -- the navigation was there already
      obtain ⟨e, rfl⟩ := Option.isSome_iff_exists.mp (h.present.mpr ⟨s', hs', hpath⟩)
      have hsame := h.agreed e rfl s' hs' hpath hrestricted
      cases hs : s.inclusion.isRestricted with
      | true =>
        rw [standing_of_restricted hs]
        have hagrees := ha e rfl ((isRestricted_congr hsame).trans hrestricted) hs
        exact sameRestrictions_euclid hagrees hsame
      | false =>
        rw [standing_of_unrestricted hs]
        exact hsame
    · cases List.mem_singleton.mp hs'
      rw [standing_of_restricted hrestricted]
      exact sameRestrictions_refl _

/-- What stands for the same insertions has the same restrictions, in whatever order they were made. -/
theorem rel (h : Stands steps path found) (h' : Stands steps' path found') (hsteps : steps.Perm steps') :
    Option.Rel (fun i i' => i.sameRestrictions i' = true) found found' := by
  have hsome : found.isSome = found'.isSome := by
    rw [Bool.eq_iff_iff, h.present, h'.present]
    simp only [hsteps.mem_iff]
  match found, found', hsome with
  | none, none, _ => exact .none
  | some i, some i', _ =>
    refine .some ?_
    cases hr : i.isRestricted with
    | true =>
      obtain ⟨s, hs, hpath, rfl⟩ := h.carried i rfl hr
      exact sameRestrictions_symm (h'.agreed i' rfl s (hsteps.mem_iff.mp hs) hpath hr)
    | false =>
      cases hr' : i'.isRestricted with
      | true =>
        obtain ⟨s, hs, hpath, rfl⟩ := h'.carried i' rfl hr'
        exact h.agreed i rfl s (hsteps.mem_iff.mpr hs) hpath hr'
      | false => exact sameRestrictions_of_unrestricted hr hr'

end Stands

/-- Trees that hold what was put into them, and nothing else. This is the invariant of all that is done to a
tree. -/
structure Holds (steps : List Insertion) (tree : List Inclusion) : Prop where
  /-- Navigations at one level have different names, so a path leads to one place. -/
  distinct : DistinctSiblings tree
  /-- Under every path there is what stands for the insertions under it. -/
  stands : ∀ parent name, Stands steps (parent ++ [name]) (bare? parent name tree)

/-- The empty tree holds nothing. -/
theorem holds_nil : Holds [] [] := by
  refine ⟨.nil, fun parent name => ?_⟩
  rw [bare?_empty]
  exact {
    present := by simp
    carried := nofun
    agreed := nofun }

/-- A tree that grows holds one navigation more. -/
theorem Holds.concat (h : Holds steps tree) (hs : s.inclusion.nested = [])
    (hinserts : Inserts s.inclusion s.parent tree tree') : Holds (steps ++ [s]) tree' := by
  refine ⟨hinserts.distinctSiblings hs h.distinct, fun parent name => ?_⟩
  rw [hinserts.bare?_eq hs]
  split
  next hhere =>
    obtain ⟨rfl, rfl⟩ := hhere
    exact (h.stands s.parent s.inclusion.navigation).concat_self fun e he => hinserts.agrees he
  next helsewhere =>
    refine (h.stands parent name).concat_of_ne fun hpath => helsewhere ?_
    obtain ⟨hparent, hname⟩ := Insertion.path_eq_concat.mp hpath
    exact ⟨hparent.symm, hname.symm⟩

/-- Where something was put there is a level below it, which further insertions can be put into. -/
theorem Holds.exists_below (h : Holds steps tree) {parent : List String}
    (hparent : parent = [] ∨ parent ∈ steps.map Insertion.path) :
    ∃ level, below? parent tree = some level := by
  rcases hparent with rfl | hparent
  · exact ⟨tree, rfl⟩
  · obtain ⟨s, hs, rfl⟩ := List.mem_map.mp hparent
    have hpresent := (h.stands s.parent s.inclusion.navigation).present.mpr ⟨s, hs, rfl⟩
    rw [bare?, Option.isSome_map] at hpresent
    obtain ⟨i, hi⟩ := Option.isSome_iff_exists.mp hpresent
    exact ⟨i.nested, by rw [Insertion.path, below?_concat, hi]; rfl⟩

/-- One insertion more is consistent with the others if what is there agrees with it. -/
theorem Holds.consistent_concat (h : Holds steps tree) (hc : Insertion.Consistent steps)
    (ha : ∀ e, bare? s.parent s.inclusion.navigation tree = some e → e.Agrees s.inclusion) :
    Insertion.Consistent (steps ++ [s]) := by
  have hlast : ∀ s' ∈ steps, s'.path = s.path → s'.inclusion.isRestricted = true →
      s.inclusion.isRestricted = true → s.inclusion.sameRestrictions s'.inclusion = true := by
    intro s' hs' hpath hrestricted' hrestricted
    have hstands := h.stands s.parent s.inclusion.navigation
    obtain ⟨e, he⟩ := Option.isSome_iff_exists.mp (hstands.present.mpr ⟨s', hs', hpath⟩)
    have hsame := hstands.agreed e he s' hs' hpath hrestricted'
    exact sameRestrictions_euclid (ha e he ((isRestricted_congr hsame).trans hrestricted') hrestricted) hsame
  intro a hmem a' hmem' hpath hr hr'
  rcases List.mem_append.mp hmem with hmem | hmem <;> rcases List.mem_append.mp hmem' with hmem' | hmem'
  · exact hc a hmem a' hmem' hpath hr hr'
  · cases List.mem_singleton.mp hmem'
    exact sameRestrictions_symm (hlast a hmem hpath hr hr')
  · cases List.mem_singleton.mp hmem
    exact hlast a' hmem' hpath.symm hr' hr
  · cases List.mem_singleton.mp hmem
    cases List.mem_singleton.mp hmem'
    exact sameRestrictions_refl _

/-- Insertions that are carried out are held by the tree, are consistent, and leave what is there in its
position. That they succeed is all that is assumed of their restrictions: a navigation that is restricted in
two ways would have stopped them. -/
theorem Holds.run {added : List Insertion} (h : Holds steps tree) (hc : Insertion.Consistent steps)
    (hg : Insertion.Grounded (steps.map Insertion.path) added) (hn : ∀ s ∈ added, s.inclusion.nested = [])
    (hrun : added.foldlM Insertion.run tree = .ok tree') :
    Holds (steps ++ added) tree' ∧ Insertion.Consistent (steps ++ added) ∧
      ∀ path positions, positions? path tree = some positions → positions? path tree' = some positions := by
  induction added generalizing steps tree with
  | nil =>
    cases hrun
    rw [List.append_nil]
    exact ⟨h, hc, fun _ _ hp => hp⟩
  | cons s added ih =>
    rw [List.foldlM_cons] at hrun
    obtain ⟨grown, hinsert, hrun⟩ := Except.bind_eq_ok.mp hrun
    obtain ⟨level, hlevel⟩ := h.exists_below hg.1
    have hinserts := inserts_of_insertAt h.distinct hlevel hinsert
    have hconcat := h.concat (hn s List.mem_cons_self) hinserts
    have hconsistent := h.consistent_concat hc fun e he => hinserts.agrees he
    have hrest : Insertion.Grounded ((steps ++ [s]).map Insertion.path) added := by
      rw [List.map_append]
      exact hg.2
    obtain ⟨hholds, hboth, hpositions⟩ :=
      ih hconcat hconsistent hrest (fun s' hs' => hn s' (List.mem_cons_of_mem s hs')) hrun
    rw [List.append_cons]
    exact ⟨hholds, hboth, fun path positions hp => hpositions path positions (hinserts.positions?_eq hp)⟩

/-- Consistent insertions can be carried out, each below what is there. Together with `Holds.run` this says
that inconsistency is the only reason why a tree does not grow. -/
theorem Holds.exists_run {added : List Insertion} (h : Holds steps tree)
    (hg : Insertion.Grounded (steps.map Insertion.path) added) (hn : ∀ s ∈ added, s.inclusion.nested = [])
    (hc : Insertion.Consistent (steps ++ added)) :
    ∃ tree', added.foldlM Insertion.run tree = .ok tree' := by
  induction added generalizing steps tree with
  | nil => exact ⟨tree, rfl⟩
  | cons s added ih =>
    obtain ⟨level, hlevel⟩ := h.exists_below hg.1
    obtain ⟨grown, hinserts⟩ := exists_inserts hlevel fun e he hr hr' => by
      obtain ⟨s', hs', hpath, rfl⟩ := (h.stands s.parent s.inclusion.navigation).carried e he hr
      exact hc s' (List.mem_append_left _ hs') s (List.mem_append_right _ List.mem_cons_self) hpath hr hr'
    have hrest : Insertion.Grounded ((steps ++ [s]).map Insertion.path) added := by
      rw [List.map_append]
      exact hg.2
    rw [List.append_cons] at hc
    obtain ⟨tree', hrun⟩ := ih (h.concat (hn s List.mem_cons_self) hinserts) hrest
      (fun s' hs' => hn s' (List.mem_cons_of_mem s hs')) hc
    exact ⟨tree', Except.bind_eq_ok.mpr ⟨grown, hinserts.insertAt_eq h.distinct, hrun⟩⟩

/-- Trees that hold the same insertions, in whatever order they were made, differ in the order of siblings
only. -/
theorem Holds.shuffled (h : Holds steps tree) (h' : Holds steps' tree') (hsteps : steps.Perm steps') :
    Shuffled tree tree' := by
  refine h.distinct.shuffled h'.distinct fun parent name => ?_
  exact (h.stands parent name).rel (h'.stands parent name) hsteps

end Inclusion

end DocumentQuery
