import DocumentQuery.Compile.Inclusion
import DocumentQuery.Proofs.Compile.Sameness
import DocumentQuery.Proofs.Success
import Mathlib.Data.List.Nodup
import Mathlib.Data.List.Perm.Basic
import Mathlib.Data.List.Forall2

/-!
# Include trees

A navigation is put into a tree of includes at the end of a path of names (`Inclusion.insertAt`). In a tree
whose siblings have different names a path leads to one place, and putting a navigation there is a matter
of this place alone (`Inclusion.Inserts`): what is found under every other path stays as it was
(`Inclusion.Inserts.bare?_eq`), and so do the positions of all that was there
(`Inclusion.Inserts.positions?_eq`). The navigation itself stands at its index in the level that it is put
into (`Inclusion.Inserts.positions?_concat`), so positions can be used for paths and paths for positions.
Only a navigation that is there already with other restrictions is in the way (`Inclusion.exists_inserts`,
`Inclusion.Inserts.agrees`).

Such a tree is known by what is found under its paths: two of them that have the same navigations there
differ in the order of siblings at most (`Inclusion.DistinctSiblings.shuffled`).

What is found under a path is looked at without what is below it (`Inclusion.bare?`). So one insertion changes
what is found under one path only, and not under all paths that lead to it, which is what makes the lookup law
an equation. The laws of one level, of appending a navigation and of replacing one, come first; the law of an
insertion follows by induction on its path.

## Main definitions

* `Inclusion.node?`, `Inclusion.bare?` — what is found under a path
* `Inclusion.DistinctSiblings` — trees whose siblings have different names
* `Inclusion.Inserts` — what putting a navigation into such a tree does
* `Inclusion.positions?` — where the navigations on a path stand
* `Inclusion.Shuffled` — trees that differ in the order of siblings
-/

namespace DocumentQuery

namespace Inclusion

variable {i e e' : Inclusion} {name : String} {path : List String} {before after : List Inclusion}
  {tree tree' level level' : List Inclusion}

/-! ## Paths -/

/-- The level of a tree below the navigations of a path. -/
def below? : List String → List Inclusion → Option (List Inclusion)
  | [], level => some level
  | name :: path, level => (level.find? (·.navigation == name)).bind fun i => below? path i.nested

/-- The navigation of a name below the navigations of a path. -/
def node? (path : List String) (name : String) (tree : List Inclusion) : Option Inclusion :=
  (below? path tree).bind fun level => level.find? (·.navigation == name)

/-- A navigation without what is below it. -/
def bare (i : Inclusion) : Inclusion :=
  { i with nested := [] }

/-- What is found under a path, without what is below it. -/
def bare? (path : List String) (name : String) (tree : List Inclusion) : Option Inclusion :=
  (node? path name tree).map bare

/-- Trees in which the navigations at one level have different names, at every level. Every tree that is built
by insertions is one. -/
inductive DistinctSiblings : List Inclusion → Prop
  | intro {level : List Inclusion} (names : (level.map navigation).Nodup)
      (nested : ∀ i ∈ level, DistinctSiblings i.nested) : DistinctSiblings level

theorem DistinctSiblings.names (h : DistinctSiblings level) : (level.map navigation).Nodup := by
  cases h
  assumption

theorem DistinctSiblings.nested (h : DistinctSiblings level) (hi : i ∈ level) :
    DistinctSiblings i.nested := by
  cases h with
  | intro _ nested => exact nested i hi

/-- A name that was found is not found elsewhere. -/
theorem DistinctSiblings.not_mem_others (h : DistinctSiblings (before ++ e :: after)) :
    e.navigation ∉ before.map navigation ++ after.map navigation := by
  have hnames := h.names
  rw [List.map_append, List.map_cons, List.nodup_middle, List.nodup_cons] at hnames
  exact hnames.1

/-- What is below a longer path is found below its first part. -/
theorem below?_append (path path' : List String) (tree : List Inclusion) :
    below? (path ++ path') tree = (below? path tree).bind (below? path') := by
  induction path generalizing tree with
  | nil => rfl
  | cons name path ih =>
    rw [List.cons_append, below?, below?, Option.bind_assoc]
    exact Option.bind_congr fun i _ => ih i.nested

/-- The level below a path is below its last navigation. -/
theorem below?_concat (path : List String) (name : String) (tree : List Inclusion) :
    below? (path ++ [name]) tree = (node? path name tree).map nested := by
  rw [below?_append, node?, Option.map_bind]
  refine Option.bind_congr fun level _ => ?_
  show (level.find? _).bind _ = (level.find? _).map nested
  cases level.find? fun i => i.navigation == name <;> rfl

/-- A tree holds whatever is on the way to what it holds. -/
theorem isSome_node?_of_prefix {path' : List String} {name' : String}
    (h : path ++ [name] <+: path' ++ [name']) (hsome : (node? path' name' tree).isSome) :
    (node? path name tree).isSome := by
  obtain ⟨rest, hrest⟩ := h
  have hbelow : (below? (path ++ [name] ++ rest) tree).isSome := by
    rwa [hrest, below?_concat, Option.isSome_map]
  rw [below?_append, below?_concat] at hbelow
  exact Option.isSome_map.symm.trans (Option.isSome_of_isSome_bind hbelow)

/-- A navigation is found through the first one on its path. -/
theorem node?_cons (first : String) (path : List String) (name : String) (tree : List Inclusion) :
    node? (first :: path) name tree =
      (tree.find? (·.navigation == first)).bind fun i => node? path name i.nested := by
  rw [node?, below?, Option.bind_assoc]
  rfl

theorem node?_empty (path : List String) (name : String) : node? path name [] = none := by
  cases path <;> rfl

theorem bare?_empty (path : List String) (name : String) : bare? path name [] = none := by
  rw [bare?, node?_empty]
  rfl

/-- Without what is below it, a navigation is found through the first one on its path as well. -/
theorem bare?_cons (first : String) (path : List String) (name : String) (tree : List Inclusion) :
    bare? (first :: path) name tree =
      (tree.find? (·.navigation == first)).bind fun i => bare? path name i.nested := by
  rw [bare?, node?_cons, Option.map_bind]
  rfl

/-! ## One level -/

theorem find?_eq_none : level.find? (·.navigation == name) = none ↔ name ∉ level.map navigation := by
  simp only [List.find?_eq_none, List.mem_map, not_exists, not_and, beq_iff_eq]

theorem bare?_nil_eq_none : bare? [] name level = none ↔ name ∉ level.map navigation :=
  Option.map_eq_none_iff.trans find?_eq_none

theorem mem_names_iff : name ∈ level.map navigation ↔ (bare? [] name level).isSome := by
  rw [← not_iff_not, ← bare?_nil_eq_none, Option.not_isSome_iff_eq_none]

/-- A navigation is found under its name if none before it has the name. -/
theorem find?_self (he : e.navigation ∉ before.map navigation) :
    (before ++ e :: after).find? (·.navigation == e.navigation) = some e := by
  rw [List.find?_append, find?_eq_none.mpr he, List.find?_cons, beq_self_eq_true]
  rfl

/-- A navigation that takes the place of another one of its name is found instead. -/
theorem find?_replace (he : e.navigation ∉ before.map navigation) (hname : e'.navigation = e.navigation)
    (name : String) : (before ++ e' :: after).find? (·.navigation == name) =
      if name = e.navigation then some e' else (before ++ e :: after).find? (·.navigation == name) := by
  split
  next h => rw [h, ← hname, find?_self (hname ▸ he)]
  next h =>
    have hne : (e.navigation == name) = false := beq_eq_false_iff_ne.mpr fun h' => h h'.symm
    simp only [List.find?_append, List.find?_cons, hname, hne]

/-- At one level, a navigation that takes the place of another one of its name is found without what is below
it. -/
theorem bare?_nil_replace (he : e.navigation ∉ before.map navigation)
    (hname : e'.navigation = e.navigation) (name : String) :
    bare? [] name (before ++ e' :: after) =
      if name = e.navigation then some e'.bare else bare? [] name (before ++ e :: after) := by
  show ((before ++ e' :: after).find? _).map bare = _
  rw [find?_replace he hname]
  split <;> rfl

/-- Below a navigation that is replaced is what is below the one that took its place. -/
theorem bare?_cons_replace (he : e.navigation ∉ before.map navigation)
    (hname : e'.navigation = e.navigation) (first : String) (path : List String) (name : String) :
    bare? (first :: path) name (before ++ e' :: after) =
      if first = e.navigation then bare? path name e'.nested
      else bare? (first :: path) name (before ++ e :: after) := by
  rw [bare?_cons, bare?_cons, find?_replace he hname]
  split <;> rfl

theorem bare?_nil_self (he : e.navigation ∉ before.map navigation) :
    bare? [] e.navigation (before ++ e :: after) = some e.bare := by
  rw [bare?_nil_replace he rfl, if_pos rfl]

theorem bare?_cons_self (he : e.navigation ∉ before.map navigation) (path : List String) (name : String) :
    bare? (e.navigation :: path) name (before ++ e :: after) = bare? path name e.nested := by
  rw [bare?_cons_replace he rfl, if_pos rfl]

theorem bare_of_nested (hi : i.nested = []) : i.bare = i := by
  cases i
  cases hi
  rfl

/-- A navigation that comes last is found under its own name, and there is nothing below it. -/
theorem bare?_concat (hnew : i.navigation ∉ level.map navigation) (hi : i.nested = [])
    (path : List String) (name : String) : bare? path name (level ++ [i]) =
      if path = [] ∧ name = i.navigation then some i else bare? path name level := by
  cases path with
  | nil =>
    simp only [true_and]
    show ((level ++ [i]).find? _).map bare = if _ then _ else (level.find? _).map bare
    rw [List.find?_append]
    split
    next hname =>
      rw [hname, find?_eq_none.mpr hnew, List.find?_singleton, if_pos (beq_self_eq_true _)]
      exact congrArg some (bare_of_nested hi)
    next hname => rw [List.find?_singleton, if_neg fun h => hname (eq_of_beq h).symm, Option.or_none]
  | cons first path =>
    rw [if_neg (by simp), bare?_cons, bare?_cons, List.find?_append, List.find?_singleton]
    cases level.find? (·.navigation == first) with
    | some e => rfl
    | none =>
      rw [Option.none_or]
      split
      · rw [Option.bind_some, hi, bare?_empty]
        rfl
      · rfl

/-- A navigation with the same ones below it changes what is found under its own name. -/
theorem bare?_replace (he : e.navigation ∉ before.map navigation) (hname : e'.navigation = e.navigation)
    (hnested : e'.nested = e.nested) (path : List String) (name : String) :
    bare? path name (before ++ e' :: after) =
      if path = [] ∧ name = e.navigation then some e'.bare
      else bare? path name (before ++ e :: after) := by
  cases path with
  | nil =>
    simp only [true_and]
    exact bare?_nil_replace he hname name
  | cons first path =>
    rw [if_neg (by simp), bare?_cons_replace he hname, hnested]
    split
    next heq => rw [heq, bare?_cons_self he]
    next => rfl

/-- Where a navigation of a name is found. -/
theorem exists_split (h : level.find? (·.navigation == name) = some e) :
    ∃ before after, level = before ++ e :: after ∧ e.navigation = name ∧
      e.navigation ∉ before.map navigation := by
  obtain ⟨hname, before, after, rfl, hbefore⟩ := List.find?_eq_some_iff_append.mp h
  refine ⟨before, after, rfl, eq_of_beq hname, fun hmem => ?_⟩
  obtain ⟨i, hi, heq⟩ := List.mem_map.mp hmem
  have hne := hbefore i hi
  rw [heq, hname] at hne
  cases hne

/-! ## Putting a navigation into a tree -/

/-- A navigation with the restrictions of another one, if that has any. What is below it stays: a navigation
keeps what was loaded through it when it is named again. -/
def takeOver (e i : Inclusion) : Inclusion :=
  if i.isRestricted then
    { e with filters := i.filters, orderBy := i.orderBy, limit := i.limit, skip := i.skip }
  else e

@[simp] theorem navigation_takeOver (e i : Inclusion) : (e.takeOver i).navigation = e.navigation := by
  unfold takeOver
  split <;> rfl

@[simp] theorem nested_takeOver (e i : Inclusion) : (e.takeOver i).nested = e.nested := by
  unfold takeOver
  split <;> rfl

/-- Navigations that are not restricted differently. One without restrictions agrees with every other, since
it only says that something is loaded through it. -/
def Agrees (e i : Inclusion) : Prop :=
  e.isRestricted = true → i.isRestricted = true → e.sameRestrictions i = true

/-- A navigation is put into a level, or it is merged with the one of its name, at the end of a path. One
constructor for each way in which `Inclusion.insertAt` succeeds. -/
inductive Inserts (i : Inclusion) : List String → List Inclusion → List Inclusion → Prop
  | append {level : List Inclusion} (new : i.navigation ∉ level.map navigation) :
      Inserts i [] level (level ++ [i])
  | merge {before after : List Inclusion} {e : Inclusion}
      (first : e.navigation ∉ before.map navigation) (name : e.navigation = i.navigation)
      (agrees : e.Agrees i) : Inserts i [] (before ++ e :: after) (before ++ e.takeOver i :: after)
  | nested {before after nested : List Inclusion} {e : Inclusion} {path : List String}
      (first : e.navigation ∉ before.map navigation) (below : Inserts i path e.nested nested) :
      Inserts i (e.navigation :: path) (before ++ e :: after)
        (before ++ { e with nested := nested } :: after)

/-- A navigation is put behind those of other names. -/
theorem insert_append (h : i.navigation ∉ before.map navigation) (after : List Inclusion) :
    insert i (before ++ after) = (insert i after).map (before ++ ·) := by
  induction before with
  | nil =>
    show insert i after = (insert i after).map fun level => level
    cases insert i after <;> rfl
  | cons first before ih =>
    rw [List.map_cons, List.mem_cons, not_or] at h
    rw [List.cons_append, insert, if_neg fun heq => h.1 heq.symm, ih h.2]
    cases insert i after <;> rfl

/-- A navigation of the same name is merged with, if it agrees. -/
theorem insert_cons_eq_ok (h : e.navigation = i.navigation) :
    insert i (e :: after) = .ok level' ↔ e.Agrees i ∧ e.takeOver i :: after = level' := by
  rw [insert, if_pos h, takeOver, Agrees]
  cases i.isRestricted <;> cases e.isRestricted <;> cases e.sameRestrictions i <;> simp

/-- Below a navigation a tree changes only there. -/
theorem insertAt_nested (hnames : e.navigation ∉ before.map navigation ++ after.map navigation) :
    insertAt i (e.navigation :: path) (before ++ e :: after) =
      (insertAt i path e.nested).map fun nested => before ++ { e with nested := nested } :: after := by
  have hother : ∀ {others : List Inclusion}, e.navigation ∉ others.map navigation →
      (others.mapM fun existing : Inclusion =>
        if existing.navigation = e.navigation then do
          let nested ← insertAt i path existing.nested
          return { existing with nested := nested }
        else .ok existing) = (.ok others : Except QueryError _) := by
    intro others hnone
    refine (Except.mapM_eq_ok (g := id) fun other hmem => ?_).trans (by rw [List.map_id])
    exact if_neg fun heq => hnone (List.mem_map.mpr ⟨other, hmem, heq⟩)
  rw [List.mem_append, not_or] at hnames
  rw [insertAt, List.mapM_append, List.mapM_cons, hother hnames.1, hother hnames.2, if_pos rfl]
  cases insertAt i path e.nested <;> rfl

/-- What is put into a tree with different names is put at one place. -/
theorem inserts_of_insertAt (hd : DistinctSiblings tree) (hb : below? path tree = some level)
    (h : insertAt i path tree = .ok tree') : Inserts i path tree tree' := by
  induction path generalizing tree tree' with
  | nil =>
    rw [insertAt] at h
    cases hfind : tree.find? (·.navigation == i.navigation) with
    | none =>
      have hnew := find?_eq_none.mp hfind
      rw [← List.append_nil tree, insert_append hnew] at h
      obtain ⟨_, hlast, rfl⟩ := Except.map_eq_ok.mp h
      cases hlast
      exact .append hnew
    | some e =>
      obtain ⟨before, after, rfl, hname, hfirst⟩ := exists_split hfind
      rw [insert_append (hname ▸ hfirst)] at h
      obtain ⟨_, hmerged, rfl⟩ := Except.map_eq_ok.mp h
      obtain ⟨hagrees, rfl⟩ := (insert_cons_eq_ok hname).mp hmerged
      exact .merge hfirst hname hagrees
  | cons name path ih =>
    obtain ⟨e, hfind, hbelow⟩ := Option.bind_eq_some_iff.mp hb
    obtain ⟨before, after, rfl, rfl, hfirst⟩ := exists_split hfind
    rw [insertAt_nested hd.not_mem_others] at h
    obtain ⟨nested, hnested, rfl⟩ := Except.map_eq_ok.mp h
    exact .nested hfirst (ih (hd.nested (List.mem_append_right _ List.mem_cons_self)) hbelow hnested)

/-- What is put at one place is put into the tree. -/
theorem Inserts.insertAt_eq (h : Inserts i path tree tree') (hd : DistinctSiblings tree) :
    insertAt i path tree = .ok tree' := by
  induction h with
  | @append level hnew =>
    have happend := insert_append hnew []
    rwa [List.append_nil] at happend
  | merge hfirst hname hagrees =>
    rw [insertAt, insert_append (hname ▸ hfirst), (insert_cons_eq_ok hname).mpr ⟨hagrees, rfl⟩]
    rfl
  | nested hfirst _ ih =>
    rw [insertAt_nested hd.not_mem_others,
      ih (hd.nested (List.mem_append_right _ List.mem_cons_self))]
    rfl

/-- A navigation can be put below every path that is there, unless it is there already with other
restrictions. No other part of the tree can be in the way. -/
theorem exists_inserts (hb : below? path tree = some level)
    (ha : ∀ e, bare? path i.navigation tree = some e → e.Agrees i) :
    ∃ tree', Inserts i path tree tree' := by
  induction path generalizing tree with
  | nil =>
    cases hfind : tree.find? (·.navigation == i.navigation) with
    | none => exact ⟨_, .append (find?_eq_none.mp hfind)⟩
    | some e =>
      have hagrees : e.Agrees i := ha e.bare (congrArg (Option.map bare) hfind)
      obtain ⟨before, after, rfl, hname, hfirst⟩ := exists_split hfind
      exact ⟨_, .merge hfirst hname hagrees⟩
  | cons name path ih =>
    obtain ⟨e, hfind, hbelow⟩ := Option.bind_eq_some_iff.mp hb
    rw [bare?_cons, hfind] at ha
    obtain ⟨nested, hnested⟩ := ih hbelow ha
    obtain ⟨before, after, rfl, rfl, hfirst⟩ := exists_split hfind
    exact ⟨_, .nested hfirst hnested⟩

/-- A navigation agrees with the one that was there. -/
theorem Inserts.agrees (h : Inserts i path tree tree') (he : bare? path i.navigation tree = some e) :
    e.Agrees i := by
  induction h with
  | append hnew => exact nomatch (bare?_nil_eq_none.mpr hnew).symm.trans he
  | @merge before after e hfirst hname hagrees =>
    rw [← hname, bare?_nil_self hfirst] at he
    cases he
    exact hagrees
  | nested hfirst _ ih =>
    rw [bare?_cons_self hfirst] at he
    exact ih he

theorem DistinctSiblings.nil : DistinctSiblings [] :=
  .intro List.nodup_nil nofun

/-- Replacing a navigation by one of its name leaves the names different. -/
theorem DistinctSiblings.replace (hd : DistinctSiblings (before ++ e :: after))
    (hname : e'.navigation = e.navigation) (hnested : DistinctSiblings e'.nested) :
    DistinctSiblings (before ++ e' :: after) := by
  refine .intro ?_ fun other hother => ?_
  · have hnames := hd.names
    rw [List.map_append, List.map_cons] at hnames ⊢
    rwa [hname]
  · rcases List.mem_append.mp hother with hother | hother
    · exact hd.nested (List.mem_append_left _ hother)
    · rcases List.mem_cons.mp hother with rfl | hother
      · exact hnested
      · exact hd.nested (List.mem_append_right _ (List.mem_cons_of_mem e hother))

/-- Names stay different. -/
theorem Inserts.distinctSiblings (h : Inserts i path tree tree') (hi : i.nested = [])
    (hd : DistinctSiblings tree) : DistinctSiblings tree' := by
  induction h with
  | append hnew =>
    refine .intro ?_ fun other hother => ?_
    · rw [List.map_append, List.map_singleton]
      exact hd.names.append (List.nodup_singleton _) (List.disjoint_singleton.mpr hnew)
    · rcases List.mem_append.mp hother with hother | hother
      · exact hd.nested hother
      · rw [List.mem_singleton.mp hother, hi]
        exact .nil
  | @merge before after e hfirst hname hagrees =>
    have he : e ∈ before ++ e :: after := List.mem_append_right _ List.mem_cons_self
    exact hd.replace (navigation_takeOver e i) (nested_takeOver e i ▸ hd.nested he)
  | @nested before after nested e path hfirst _ ih =>
    have he : e ∈ before ++ e :: after := List.mem_append_right _ List.mem_cons_self
    exact hd.replace rfl (ih (hd.nested he))

/-- What stands for a navigation once another one was put in its place: the one with restrictions, or else the
one that was there. -/
def standing (i : Inclusion) : Option Inclusion → Inclusion
  | some e => if i.isRestricted then i else e
  | none => i

theorem standing_of_restricted (h : i.isRestricted = true) (found : Option Inclusion) :
    i.standing found = i := by
  cases found with
  | none => rfl
  | some e => exact if_pos h

theorem standing_of_unrestricted (h : i.isRestricted = false) (found : Option Inclusion) :
    i.standing found = found.getD i := by
  cases found with
  | none => rfl
  | some e => exact if_neg (ne_true_of_eq_false h)

/-- What is merged stands for both. -/
theorem bare_takeOver (hi : i.nested = []) (hname : e.navigation = i.navigation) :
    (e.takeOver i).bare = i.standing (some e.bare) := by
  obtain ⟨navigation, filters, orderBy, limit, skip, nested⟩ := i
  cases hi
  cases hname
  unfold takeOver standing
  split <;> rfl

/-- Putting a navigation into a tree changes what is found under its path, and nothing else. The two cases
under the path, that it was there and that it was not, are one by `Inclusion.standing`. -/
theorem Inserts.bare?_eq (h : Inserts i path tree tree') (hi : i.nested = []) (path' : List String)
    (name : String) : bare? path' name tree' =
      if path' = path ∧ name = i.navigation then some (i.standing (bare? path' name tree))
      else bare? path' name tree := by
  induction h generalizing path' with
  | @append level hnew =>
    rw [bare?_concat hnew hi]
    split
    next hhere =>
      obtain ⟨rfl, rfl⟩ := hhere
      rw [bare?_nil_eq_none.mpr hnew]
      rfl
    next => rfl
  | @merge before after e hfirst hname hagrees =>
    rw [bare?_replace hfirst (navigation_takeOver e i) (nested_takeOver e i), hname]
    split
    next hhere =>
      obtain ⟨rfl, rfl⟩ := hhere
      rw [← hname, bare?_nil_self hfirst, bare_takeOver hi hname]
    next => rfl
  | @nested before after nested e path hfirst _ ih =>
    have hname : ({ e with nested := nested } : Inclusion).navigation = e.navigation := rfl
    -- the insertion goes on below the first name, so the level itself has the same names as before
    cases path' with
    | nil =>
      rw [if_neg (by simp), bare?_nil_replace hfirst hname]
      split
      next heq =>
        rw [heq, bare?_nil_self hfirst]
        rfl
      next => rfl
    | cons first path' =>
      rw [bare?_cons_replace hfirst hname, ih]
      split
      next heq =>
        rw [heq, bare?_cons_self hfirst]
        simp only [List.cons.injEq, true_and]
      next hne => rw [if_neg fun h => hne (List.cons.inj h.1).1]

/-! ## Positions -/

/-- The positions of the navigations on a path, each within its level. -/
def positions? : List String → List Inclusion → Option (List Nat)
  | [], _ => some []
  | name :: path, level => do
    let position ← level.findIdx? (·.navigation == name)
    let i ← level.find? (·.navigation == name)
    let positions ← positions? path i.nested
    return position :: positions

/-- The level of a tree below the navigations at given positions, if they are all in range. This is how a
cursor of positions is followed. -/
def levelAt? : List Nat → List Inclusion → Option (List Inclusion)
  | [], level => some level
  | position :: positions, level => level[position]?.bind fun i => levelAt? positions i.nested

/-- A navigation stands behind those before it. -/
theorem findIdx?_self (he : e.navigation ∉ before.map navigation) :
    (before ++ e :: after).findIdx? (·.navigation == e.navigation) = some before.length := by
  have hnone : before.findIdx? (·.navigation == e.navigation) = none := by
    rw [List.findIdx?_eq_none_iff]
    exact fun i hi => beq_eq_false_iff_ne.mpr fun hname => he (List.mem_map.mpr ⟨i, hi, hname⟩)
  rw [List.findIdx?_append, hnone, List.findIdx?_cons, if_pos (beq_self_eq_true _)]
  simp

/-- A navigation that takes the place of one of its name stands where that one stood. -/
theorem findIdx?_replace (hname : e'.navigation = e.navigation) (name : String) :
    (before ++ e' :: after).findIdx? (·.navigation == name) =
      (before ++ e :: after).findIdx? (·.navigation == name) := by
  simp only [List.findIdx?_append, List.findIdx?_cons, hname]

theorem positions?_cons_replace (he : e.navigation ∉ before.map navigation)
    (hname : e'.navigation = e.navigation) (first : String) (path : List String) :
    positions? (first :: path) (before ++ e' :: after) =
      if first = e.navigation then (positions? path e'.nested).map (before.length :: ·)
      else positions? (first :: path) (before ++ e :: after) := by
  rw [positions?, positions?, findIdx?_replace hname, find?_replace he hname]
  split
  next heq =>
    rw [heq, findIdx?_self he]
    simp only [Option.bind_eq_bind, Option.bind_some]
    cases positions? path e'.nested <;> rfl
  next => rfl

/-- The navigations on a path are at positions in range. -/
theorem exists_positions (h : below? path tree = some level) :
    ∃ positions, positions? path tree = some positions ∧ levelAt? positions tree = some level := by
  induction path generalizing tree with
  | nil =>
    cases h
    exact ⟨[], rfl, rfl⟩
  | cons name path ih =>
    obtain ⟨e, hfind, hbelow⟩ := Option.bind_eq_some_iff.mp h
    obtain ⟨positions, hpositions, hlevel⟩ := ih hbelow
    obtain ⟨before, after, rfl, rfl, hfirst⟩ := exists_split hfind
    refine ⟨before.length :: positions, ?_, ?_⟩
    · rw [positions?_cons_replace hfirst rfl, if_pos rfl, hpositions]
      rfl
    · rw [levelAt?, List.getElem?_append_right (Nat.le_refl _), Nat.sub_self]
      exact hlevel

/-- Positions do not change when a tree grows: a navigation is put at the end of its level or takes the place
of another one. So a cursor that was taken before is good afterwards. -/
theorem Inserts.positions?_eq (h : Inserts i path tree tree') {path' : List String} {positions : List Nat}
    (hp : positions? path' tree = some positions) : positions? path' tree' = some positions := by
  induction h generalizing path' positions with
  | append hnew =>
    cases path' with
    | nil => exact hp
    | cons first path' =>
      obtain ⟨position, hposition, hp⟩ := Option.bind_eq_some_iff.mp hp
      obtain ⟨e, hfind, hp⟩ := Option.bind_eq_some_iff.mp hp
      -- what was found before is found in front of what was put at the end
      rw [positions?, List.findIdx?_append, List.find?_append, hposition, hfind]
      exact hp
  | @merge before after e hfirst hname hagrees =>
    cases path' with
    | nil => exact hp
    | cons first path' =>
      rw [positions?_cons_replace hfirst rfl] at hp
      rw [positions?_cons_replace hfirst (navigation_takeOver e i), nested_takeOver]
      exact hp
  | @nested before after nested e path hfirst _ ih =>
    have hname : ({ e with nested := nested } : Inclusion).navigation = e.navigation := rfl
    cases path' with
    | nil => exact hp
    | cons first path' =>
      rw [positions?_cons_replace hfirst hname]
      split
      next heq =>
        rw [heq, positions?_cons_replace hfirst rfl, if_pos rfl] at hp
        obtain ⟨positions, hpositions, rfl⟩ := Option.map_eq_some_iff.mp hp
        exact Option.map_eq_some_iff.mpr ⟨positions, ih hpositions, rfl⟩
      next => exact hp

/-- A new navigation comes last. -/
theorem indexIn_of_new (hnew : i.navigation ∉ level.map navigation) : i.indexIn level = level.length :=
  List.findIdx_eq_length.mpr fun e he =>
    beq_eq_false_iff_ne.mpr fun hname => hnew (List.mem_map.mpr ⟨e, he, hname⟩)

/-- A navigation that is there has the position of the first one of its name. -/
theorem indexIn_of_first (hfirst : e.navigation ∉ before.map navigation) (hname : e.navigation = i.navigation) :
    i.indexIn (before ++ e :: after) = before.length := by
  have hindex : (before ++ e :: after).findIdx? (·.navigation == e.navigation) = some before.length :=
    findIdx?_self hfirst
  rw [hname] at hindex
  exact (List.findIdx?_eq_some_iff_findIdx_eq.mp hindex).2

/-- A navigation that is put into a level stands at its index there. -/
theorem Inserts.positions?_concat (h : Inserts i path tree tree') (hb : below? path tree = some level)
    {positions : List Nat} (hp : positions? path tree = some positions) :
    positions? (path ++ [i.navigation]) tree' = some (positions ++ [i.indexIn level]) := by
  induction h generalizing positions with
  | append hnew =>
    cases hb
    cases hp
    rw [indexIn_of_new hnew, List.nil_append, positions?, findIdx?_self hnew, find?_self hnew]
    rfl
  | @merge before after e hfirst hname hagrees =>
    cases hb
    cases hp
    rw [indexIn_of_first hfirst hname, List.nil_append, ← hname,
      positions?_cons_replace hfirst (navigation_takeOver e i), if_pos rfl]
    rfl
  | @nested before after nested e path hfirst _ ih =>
    have hname : ({ e with nested := nested } : Inclusion).navigation = e.navigation := rfl
    rw [below?, find?_self hfirst] at hb
    rw [positions?_cons_replace hfirst rfl, if_pos rfl] at hp
    obtain ⟨positions, hpositions, rfl⟩ := Option.map_eq_some_iff.mp hp
    rw [List.cons_append, positions?_cons_replace hfirst hname, if_pos rfl, ih hb hpositions]
    rfl

/-! ## The order of siblings -/

/-- Trees that differ in the order of siblings, at any level, and in restrictions that are the same without
being equal. -/
inductive Shuffled : List Inclusion → List Inclusion → Prop
  | nil : Shuffled [] []
  | cons {i i' : Inclusion} {is is' : List Inclusion} (navigation : i.navigation = i'.navigation)
      (same : i.sameRestrictions i' = true) (below : Shuffled i.nested i'.nested)
      (rest : Shuffled is is') : Shuffled (i :: is) (i' :: is')
  | swap (i i' : Inclusion) (is : List Inclusion) : Shuffled (i :: i' :: is) (i' :: i :: is)
  | trans {is is' is'' : List Inclusion} (h : Shuffled is is') (h' : Shuffled is' is'') : Shuffled is is''

mutual

theorem Shuffled.nested : (i : Inclusion) → Shuffled i.nested i.nested
  | ⟨_, _, _, _, _, nested⟩ => Shuffled.refl nested

theorem Shuffled.refl : (is : List Inclusion) → Shuffled is is
  | [] => .nil
  | i :: is => .cons rfl i.sameRestrictions_refl (Shuffled.nested i) (Shuffled.refl is)

end

/-- Siblings in another order. -/
theorem Shuffled.of_perm (h : level.Perm level') : Shuffled level level' := by
  induction h with
  | nil => exact .nil
  | cons i _ ih => exact .cons rfl i.sameRestrictions_refl (Shuffled.nested i) ih
  | swap i i' is => exact .swap i' i is
  | trans _ _ ih ih' => exact ih.trans ih'

/-- Trees that correspond sibling by sibling. -/
theorem Shuffled.of_forall₂ (h : List.Forall₂ (fun i i' => i.navigation = i'.navigation) level level')
    (hsame : ∀ i ∈ level, ∀ i' ∈ level', i.navigation = i'.navigation →
      i.sameRestrictions i' = true ∧ Shuffled i.nested i'.nested) : Shuffled level level' := by
  induction h with
  | nil => exact .nil
  | cons hname _ ih =>
    obtain ⟨hrestrictions, hnested⟩ := hsame _ List.mem_cons_self _ List.mem_cons_self hname
    exact .cons hname hrestrictions hnested (ih fun i hi i' hi' =>
      hsame i (List.mem_cons_of_mem _ hi) i' (List.mem_cons_of_mem _ hi'))

/-- Each of several siblings is the one that is found under its name. -/
theorem DistinctSiblings.find?_of_mem (hd : DistinctSiblings level) (hi : i ∈ level) :
    level.find? (·.navigation == i.navigation) = some i := by
  obtain ⟨before, after, rfl⟩ := List.append_of_mem hi
  exact find?_self fun hmem => hd.not_mem_others (List.mem_append_left _ hmem)

/-- Trees with the same navigations under every path differ in the order of siblings only. What is found under
the paths, therefore, is all there is to know about a tree. -/
theorem DistinctSiblings.shuffled (hd : DistinctSiblings tree) (hd' : DistinctSiblings tree')
    (h : ∀ path name, Option.Rel (fun i i' => i.sameRestrictions i' = true) (bare? path name tree)
      (bare? path name tree')) : Shuffled tree tree' := by
  induction hd generalizing tree' with
  | @intro tree names nested ih =>
    have hd : DistinctSiblings tree := .intro names nested
    have hperm : (tree.map navigation).Perm (tree'.map navigation) := by
      refine (List.perm_ext_iff_of_nodup names hd'.names).mpr fun name => ?_
      have hsome : (bare? [] name tree).isSome = (bare? [] name tree').isSome := by
        have hrel := h [] name
        generalize bare? [] name tree = found, bare? [] name tree' = found' at hrel ⊢
        cases hrel <;> rfl
      rw [mem_names_iff, mem_names_iff, hsome]
    -- the navigations of the second tree in the order of the first one
    obtain ⟨arranged, hnames, harranged⟩ :=
      (congrFun₂ (List.eq_map_comp_perm navigation) (tree.map navigation) tree').mpr hperm
    refine Shuffled.trans (.of_forall₂ ?_ fun i hi i' hi' hname => ?_) (.of_perm harranged)
    · rw [← List.forall₂_eq_eq_eq, List.forall₂_map_left_iff, List.forall₂_map_right_iff] at hnames
      exact hnames
    · have hfind := hd.find?_of_mem hi
      have hfind' := hd'.find?_of_mem (harranged.mem_iff.mp hi')
      rw [← hname] at hfind'
      constructor
      · have hrel : Option.Rel _ ((tree.find? _).map bare) ((tree'.find? _).map bare) := h [] i.navigation
        rw [hfind, hfind'] at hrel
        cases hrel
        assumption
      · refine ih i hi (hd'.nested (harranged.mem_iff.mp hi')) fun path name => ?_
        have hrel := h (i.navigation :: path) name
        rwa [bare?_cons, bare?_cons, hfind, hfind'] at hrel

end Inclusion

end DocumentQuery
