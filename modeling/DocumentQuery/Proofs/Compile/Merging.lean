import DocumentQuery.Proofs.Compile.Chains
import DocumentQuery.Proofs.Lists

/-!
# Include trees that are merged

The chains of navigations of a pipeline are merged into one tree (`Pipeline.compile_merges`). Its siblings
have different names, its paths are those of the chains and of what is on the way to them, and a navigation
is restricted just as the chains that end in it ask for (`Inclusion.Merges`).

A chain of operators begins with an include, and the others continue it (`IncludeChain`). Such chains may be
written in another order: what they ask for is the same (`exists_chainsOf_of_perm`), so the tree is
the same up to the order of siblings, or there is none in either order.

A path of names stands for the positions of its navigations, because putting a further navigation into the
tree leaves those that are there where they are. `Inclusion.InRange` says it of a whole run: below whichever
positions a navigation is put, they are in range of the tree as it is then, and they lead to the same
navigations in the tree that comes out in the end.

## Main definitions

* `Inclusion.Merges` — trees into which chains of navigations were merged
* `Inclusion.InRange` — insertions at positions in range
* `IncludeChain` — an include with the operators that continue it
-/

namespace DocumentQuery

variable {m : Model} {tree tree' : List Inclusion}

section RequestedChains

variable {root : String} {last : Option (List String)} {ops : List Operator} {rs : List RequestedChain}
  {blocks : List (List Insertion)}

/-- Every insertion of a pipeline is below one before. A chain that begins with an include starts at the root,
and one that continues an include starts where that include has ended, so no insertion ever looks for a
navigation that is not there. -/
theorem grounded_flatten {known : List (List String)} (hrs : chainsOf? m root last ops = some rs)
    (hblocks : rs.mapM (RequestedChain.insertions m) = .ok blocks)
    (hlast : ∀ path, last = some path → path ∈ known) :
    Insertion.Grounded known blocks.flatten := by
  induction ops generalizing last rs blocks known with
  | nil =>
    cases hrs
    cases hblocks
    trivial
  | cons op ops ih =>
    obtain ⟨parent, navigation, r, rest, hop, hr, hrest, rfl⟩ := chainsOf?_cons_eq_some hrs
    rw [List.mapM_cons] at hblocks
    obtain ⟨first, hfirst, hblocks⟩ := Except.bind_eq_ok.mp hblocks
    obtain ⟨others, hothers, hblocks⟩ := Except.bind_eq_ok.mp hblocks
    cases hblocks
    have hparent : r.parent = [] ∨ r.parent ∈ known := by
      rw [(RequestedChain.ofLambda?_eq_some hr).1]
      exact (Operator.parent_of_loading? hop).imp_right (hlast parent)
    rw [List.flatten_cons, Insertion.grounded_append]
    refine ⟨RequestedChain.grounded_insertions hfirst hparent, ih hrest hothers fun path hpath => ?_⟩
    cases hpath
    exact List.mem_append_right _ (RequestedChain.mem_path hfirst)

/-- What is put into a tree for a pipeline is put there for one of its chains, as one of the steps into which
this chain is taken apart. -/
theorem exists_requestedChain (hblocks : rs.mapM (RequestedChain.insertions m) = .ok blocks) {s : Insertion}
    (hs : s ∈ blocks.flatten) : ∃ r ∈ rs, ∃ steps, r.insertions m = .ok steps ∧ s ∈ steps := by
  obtain ⟨steps, hsteps, hs⟩ := List.mem_flatten.mp hs
  obtain ⟨r, hr, hinsertions⟩ := Except.mem_of_mapM_eq_ok hblocks hsteps
  exact ⟨r, hr, steps, hinsertions, hs⟩

/-- Every chain of a pipeline is put into a tree: it can be taken apart into steps, and all of them are among
those of the pipeline. -/
theorem exists_insertions (hblocks : rs.mapM (RequestedChain.insertions m) = .ok blocks)
    {r : RequestedChain} (hr : r ∈ rs) :
    ∃ steps, r.insertions m = .ok steps ∧ ∀ s ∈ steps, s ∈ blocks.flatten := by
  obtain ⟨steps, hsteps, hinsertions⟩ := exists_of_forall₂ (Except.mapM_eq_ok_iff.mp hblocks) hr
  exact ⟨steps, hinsertions, fun s hs => List.mem_flatten.mpr ⟨steps, hsteps, hs⟩⟩

theorem nested_of_mem (hblocks : rs.mapM (RequestedChain.insertions m) = .ok blocks) :
    ∀ s ∈ blocks.flatten, s.inclusion.nested = [] := by
  intro s hs
  obtain ⟨r, -, steps, hinsertions, hs⟩ := exists_requestedChain hblocks hs
  exact (RequestedChain.of_mem_insertions hinsertions hs).2.1

namespace Inclusion

/-- Trees into which chains of navigations were merged, described without the order in which that was done.
The paths are those of the chains and of what is on the way to them, and a navigation carries restrictions
just if a chain that ends in it asks for some. -/
structure Merges (m : Model) (requests : List RequestedChain) (tree : List Inclusion) : Prop where
  /-- At no place of the tree do two siblings have the same name. -/
  distinct : DistinctSiblings tree
  /-- The paths of the tree are the beginnings of those of the chains. -/
  paths : ∀ path name, (node? path name tree).isSome ↔ ∃ r ∈ requests, path ++ [name] <+: r.path
  /-- What is restricted carries the restrictions that a chain asks for. -/
  carried : ∀ path name i, node? path name tree = some i → i.isRestricted = true →
    ∃ r ∈ requests, r.path = path ++ [name] ∧ r.inclusion m = .ok i.bare
  /-- No chain asks for others. -/
  agreed : ∀ path name i, node? path name tree = some i → ∀ r ∈ requests, r.path = path ++ [name] →
    ∃ inclusion, r.inclusion m = .ok inclusion ∧
      (inclusion.isRestricted = true → i.sameRestrictions inclusion = true)

/-- A tree that holds the steps of chains is one that the chains are merged into: the laws about single steps
become laws about chains, because a chain is restricted at its last step only. -/
theorem merges_of_holds (hblocks : rs.mapM (RequestedChain.insertions m) = .ok blocks)
    (h : Holds blocks.flatten tree) : Merges m rs tree where
  distinct := h.distinct
  -- a tree has the prefixes of its paths, so the last step of a chain stands for the others
  paths path name := by
    rw [← Option.isSome_map (f := bare)]
    constructor
    · intro hsome
      obtain ⟨s, hs, hpath⟩ := (h.stands path name).present.mp hsome
      obtain ⟨r, hr, steps, hinsertions, hs⟩ := exists_requestedChain hblocks hs
      exact ⟨r, hr, hpath ▸ (RequestedChain.of_mem_insertions hinsertions hs).1⟩
    · rintro ⟨r, hr, hway⟩
      obtain ⟨steps, hinsertions, hsteps⟩ := exists_insertions hblocks hr
      obtain ⟨s, hs, hpath⟩ := List.mem_map.mp (RequestedChain.mem_path hinsertions)
      have hsome := (h.stands s.parent s.inclusion.navigation).present.mpr ⟨s, hsteps s hs, rfl⟩
      rw [bare?, Option.isSome_map] at hsome
      rw [Option.isSome_map]
      exact isSome_node?_of_prefix (show path ++ [name] <+: s.path from hpath ▸ hway) hsome
  carried path name i hi hrestricted := by
    have hbare : bare? path name tree = some i.bare := congrArg (Option.map bare) hi
    obtain ⟨s, hs, hpath, hinclusion⟩ := (h.stands path name).carried i.bare hbare hrestricted
    obtain ⟨r, hr, steps, hinsertions, hs⟩ := exists_requestedChain hblocks hs
    obtain ⟨-, -, hlast⟩ := RequestedChain.of_mem_insertions hinsertions hs
    rw [hinclusion] at hlast
    obtain ⟨hend, hcarried⟩ := hlast hrestricted
    exact ⟨r, hr, hend ▸ hpath, hcarried⟩
  agreed path name i hi r hr hpath := by
    have hbare : bare? path name tree = some i.bare := congrArg (Option.map bare) hi
    obtain ⟨steps, hinsertions, hsteps⟩ := exists_insertions hblocks hr
    obtain ⟨inclusion, hinclusion, -, hend, rfl⟩ := RequestedChain.exists_last hinsertions
    have hlast := hsteps _ (List.mem_append_right _ (List.mem_singleton_self _))
    have hagreed := (h.stands path name).agreed i.bare hbare _ hlast (hend.trans hpath)
    exact ⟨inclusion, hinclusion, hagreed⟩

end Inclusion

end RequestedChains

/-! ## Chains of operators -/

/-- An include with the operators that continue it. Reordering a pipeline of includes means reordering such
chains; the operators inside of one belong together. -/
structure IncludeChain where
  first : Lambda
  rest : List Lambda

namespace IncludeChain

/-- The operators of a chain. -/
def operators (c : IncludeChain) : List Operator :=
  .include c.first :: c.rest.map .thenInclude

end IncludeChain

section Chains

variable {root : String} {last : Option (List String)} {ops : List Operator} {rs : List RequestedChain}

/-- Operators that load navigations are chains of includes, after those that continue an include from before.
There are none of these at the beginning of a pipeline. -/
theorem exists_chains (hrs : chainsOf? m root last ops = some rs) :
    ∃ (more : List Lambda) (chains : List IncludeChain),
      ops = more.map .thenInclude ++ chains.flatMap IncludeChain.operators ∧ (last = none → more = []) := by
  induction ops generalizing last rs with
  | nil => exact ⟨[], [], rfl, fun _ => rfl⟩
  | cons op ops ih =>
    obtain ⟨parent, navigation, r, rest, hop, -, hrest, -⟩ := chainsOf?_cons_eq_some hrs
    obtain ⟨more, chains, rfl, -⟩ := ih hrest
    cases op with
    | «include» navigation => exact ⟨[], ⟨navigation, more⟩ :: chains, rfl, fun _ => rfl⟩
    | thenInclude navigation =>
      refine ⟨navigation :: more, chains, rfl, fun hnone => ?_⟩
      rw [hnone] at hop
      cases hop
    | _ => cases hop

/-- What operators ask for does not depend on those before them, if they do not continue an include. -/
theorem chainsOf?_append {ops' : List Operator}
    (hfirst : ∀ last, chainsOf? m root last ops' = chainsOf? m root none ops') :
    chainsOf? m root last (ops ++ ops') = (chainsOf? m root last ops).bind fun rs =>
      (chainsOf? m root none ops').map (rs ++ ·) := by
  induction ops generalizing last with
  | nil =>
    rw [List.nil_append, hfirst]
    exact Option.map_id'.symm
  | cons op ops ih =>
    rw [List.cons_append, chainsOf?, chainsOf?]
    cases op.loading? last with
    | none => rfl
    | some loading =>
      cases hr : RequestedChain.ofLambda? m root loading.1 loading.2 with
      | none => simp [hr]
      | some r =>
        simp only [Option.bind_eq_bind, Option.bind_some, hr, ih]
        cases chainsOf? m root (some r.path) ops <;> cases chainsOf? m root none ops' <;> rfl

theorem chainsOf?_flatMap (chains : List IncludeChain) :
    chainsOf? m root last (chains.flatMap IncludeChain.operators) = some rs ↔
      ∃ blocks, rs = blocks.flatten ∧
        List.Forall₂ (fun c block => chainsOf? m root none c.operators = some block) chains blocks := by
  induction chains generalizing last rs with
  | nil =>
    constructor
    · intro h
      cases h
      exact ⟨[], rfl, .nil⟩
    · rintro ⟨blocks, rfl, hblocks⟩
      cases hblocks
      rfl
  | cons c chains ih =>
    -- every chain begins with an include of its own, so what came last before it does not matter
    have hfirst : ∀ last, chainsOf? m root last (chains.flatMap IncludeChain.operators) =
        chainsOf? m root none (chains.flatMap IncludeChain.operators) := by
      intro last
      cases chains <;> rfl
    rw [List.flatMap_cons, chainsOf?_append hfirst]
    constructor
    · intro h
      obtain ⟨block, hblock, h⟩ := Option.bind_eq_some_iff.mp h
      obtain ⟨rest, hrest, rfl⟩ := Option.map_eq_some_iff.mp h
      obtain ⟨blocks, rfl, hblocks⟩ := ih.mp hrest
      exact ⟨block :: blocks, rfl, .cons hblock hblocks⟩
    · rintro ⟨_, rfl, hblocks⟩
      cases hblocks with
      | cons hblock hblocks =>
        refine Option.bind_eq_some_iff.mpr ⟨_, hblock, Option.map_eq_some_iff.mpr ⟨_, ?_, rfl⟩⟩
        exact ih.mpr ⟨_, rfl, hblocks⟩

/-- Chains in another order ask for the same, up to that order. The types and paths they start from are those
of their own include and not of the chain before them. -/
theorem exists_chainsOf_of_perm {chains chains' : List IncludeChain} (hperm : chains.Perm chains')
    (hrs : chainsOf? m root none (chains.flatMap IncludeChain.operators) = some rs) :
    ∃ rs', chainsOf? m root none (chains'.flatMap IncludeChain.operators) = some rs' ∧
      rs.Perm rs' := by
  obtain ⟨blocks, rfl, hblocks⟩ := (chainsOf?_flatMap chains).mp hrs
  obtain ⟨blocks', hblocks', hsame⟩ := List.perm_comp_forall₂ hperm.symm hblocks
  exact ⟨blocks'.flatten, (chainsOf?_flatMap chains').mpr ⟨blocks', rfl, hblocks'⟩,
    hsame.flatten.symm⟩

end Chains

/-! ## Compiled includes -/

namespace Inclusion

/-- Insertions each of which is made below positions in range, which are the positions in a later tree as
well. The position of what is put there is its index in the level, then and later. So the index by which a
navigation is continued afterwards is never out of range and never that of another navigation. -/
def InRange (steps : List Insertion) (tree : List Inclusion) : Prop :=
  ∀ before s after, steps = before ++ s :: after → ∃ grown level positions,
    before.foldlM Insertion.run [] = .ok grown ∧ below? s.parent grown = some level ∧
      positions? s.parent grown = some positions ∧ levelAt? positions grown = some level ∧
      positions? s.parent tree = some positions ∧
      positions? s.path tree = some (positions ++ [s.inclusion.indexIn level])

theorem inRange_of_run {steps : List Insertion} (hg : Insertion.Grounded [] steps)
    (hn : ∀ s ∈ steps, s.inclusion.nested = []) (hrun : steps.foldlM Insertion.run [] = .ok tree) :
    InRange steps tree := by
  rintro before s after rfl
  obtain ⟨hbefore, hafter⟩ := Insertion.grounded_append.mp hg
  rw [List.foldlM_append] at hrun
  obtain ⟨grown, hgrown, hrun⟩ := Except.bind_eq_ok.mp hrun
  obtain ⟨holds, hc, -⟩ := holds_nil.run nofun hbefore
    (fun s' hs' => hn s' (List.mem_append_left _ hs')) hgrown
  obtain ⟨level, hlevel⟩ := holds.exists_below hafter.1
  obtain ⟨positions, hat, hrange⟩ := exists_positions hlevel
  rw [List.foldlM_cons] at hrun
  obtain ⟨next, hnext, hrun⟩ := Except.bind_eq_ok.mp hrun
  have hinserts := inserts_of_insertAt holds.distinct hlevel hnext
  have hs := hn s (List.mem_append_right _ List.mem_cons_self)
  have hnextHolds := holds.concat hs hinserts
  have hrest : Insertion.Grounded ((before ++ [s]).map Insertion.path) after := by
    rw [List.map_append]
    exact hafter.2
  obtain ⟨-, -, hkeep⟩ := hnextHolds.run
    (holds.consistent_concat hc fun e he => hinserts.agrees he) hrest
    (fun s' hs' => hn s' (List.mem_append_right _ (List.mem_cons_of_mem s hs'))) hrun
  exact ⟨grown, level, positions, hgrown, hlevel, hat, hrange,
    hkeep s.parent positions (hinserts.positions?_eq hat),
    hkeep s.path _ (hinserts.positions?_concat hlevel hat)⟩

end Inclusion

namespace Pipeline

variable {pipeline : Pipeline} {requests : List RequestedChain} {t : Template}

/-- The chains of a pipeline of includes are merged into one tree. Each navigation is put below a level at
positions that are in range, and in another order the chains give the same tree up to the order of
siblings. -/
theorem compile_merges (hrequests : pipeline.requestedChains? m = some requests)
    (h : pipeline.compile m = .ok t) :
    Inclusion.Merges m requests t.includes ∧
      (∃ blocks, requests.mapM (RequestedChain.insertions m) = .ok blocks ∧
        blocks.flatten.foldlM Insertion.run [] = .ok t.includes ∧
        Inclusion.InRange blocks.flatten t.includes) ∧
      (∃ chains : List IncludeChain, pipeline.operators = chains.flatMap IncludeChain.operators) ∧
      ∀ chains chains' : List IncludeChain, pipeline.operators = chains.flatMap IncludeChain.operators →
        chains.Perm chains' →
          ∃ t', Pipeline.compile m ⟨pipeline.root, chains'.flatMap IncludeChain.operators⟩ = .ok t' ∧
            t' = { t with includes := t'.includes } ∧ Inclusion.Shuffled t.includes t'.includes := by
  obtain ⟨type, collection, key, -, hroot, hkind, -⟩ := compile_spec h
  obtain ⟨type', hroot', hrs⟩ := Option.bind_eq_some_iff.mp hrequests
  rw [hroot] at hroot'
  cases hroot'
  obtain ⟨blocks, tree, hblocks, hrun, rfl⟩ := (compile_eq_ok hroot hkind hrs).mp h
  have hgrounded : Insertion.Grounded [] blocks.flatten := grounded_flatten hrs hblocks nofun
  have hnested := nested_of_mem hblocks
  obtain ⟨hholds, hc, -⟩ := Inclusion.holds_nil.run nofun hgrounded hnested hrun
  refine ⟨Inclusion.merges_of_holds hblocks hholds, ⟨blocks, hblocks, hrun,
    Inclusion.inRange_of_run hgrounded hnested hrun⟩, ?_, fun chains chains' hchains hperm => ?_⟩
  · obtain ⟨more, chains, hchains, hfirst⟩ := exists_chains hrs
    rw [hfirst rfl] at hchains
    exact ⟨chains, hchains⟩
  · rw [hchains] at hrs
    obtain ⟨requests', hrs', hsame⟩ := exists_chainsOf_of_perm hperm hrs
    -- the chains of the other order are put into the tree by the same insertions
    obtain ⟨blocks', hblocks', hinsertions⟩ :=
      List.perm_comp_forall₂ hsame.symm (Except.mapM_eq_ok_iff.mp hblocks)
    rw [← Except.mapM_eq_ok_iff] at hblocks'
    have hsteps : blocks.flatten.Perm blocks'.flatten := hinsertions.symm.flatten
    have hgrounded' : Insertion.Grounded [] blocks'.flatten := grounded_flatten hrs' hblocks' nofun
    have hnested' := nested_of_mem hblocks'
    have hc' : Insertion.Consistent ([] ++ blocks'.flatten) := fun s hs s' hs' =>
      hc s (hsteps.mem_iff.mpr hs) s' (hsteps.mem_iff.mpr hs')
    obtain ⟨tree', hrun'⟩ := Inclusion.holds_nil.exists_run hgrounded' hnested' hc'
    obtain ⟨hholds', -, -⟩ := Inclusion.holds_nil.run nofun hgrounded' hnested' hrun'
    exact ⟨_, (compile_eq_ok hroot hkind hrs').mpr ⟨blocks', tree', hblocks', hrun', rfl⟩, rfl,
      hholds.shuffled hholds' hsteps⟩

end Pipeline

/-- Teams with boards, whose notes are known, and with notes of their own. -/
def Model.teams : Model :=
  Model.boards.withType
    ⟨"Team", .entity "teams" "Id", [.named "Id" (.scalar .string)],
      [.childCollection "Boards" "Board" .list "boards", .childCollection "Pinned" "Note" .list "pinned"], []⟩

namespace IncludeChain

/-- The notes of boards with a rank above 0. -/
def rankedNotes : IncludeChain :=
  ⟨⟨"t", .call .filter (some (.member (.member (.param "t") "Boards") "Notes"))
    [.lambda "n" (.binary .greaterThan (.member (.param "n") "Rank") (.constant (.int 0)))]⟩, []⟩

/-- The boards and all their notes. -/
def boardNotes : IncludeChain :=
  ⟨⟨"t", .member (.param "t") "Boards"⟩, [⟨"b", .member (.param "b") "Notes"⟩]⟩

/-- The first one of the pinned notes. -/
def firstPinned : IncludeChain :=
  ⟨⟨"t", .call .take (some (.member (.param "t") "Pinned")) [.constant (.int 1)]⟩, []⟩

end IncludeChain

namespace Pipeline

/-- Notes of boards that are asked for twice are restricted as one of the chains says, whichever comes
first. -/
theorem compile_merges_boardNotes :
    ∃ requests t t',
      requestedChains? Model.teams
          ⟨"Team", [.rankedNotes, .boardNotes, .firstPinned].flatMap IncludeChain.operators⟩ = some requests ∧
        Pipeline.compile Model.teams
          ⟨"Team", [.rankedNotes, .boardNotes, .firstPinned].flatMap IncludeChain.operators⟩ = .ok t ∧
        Pipeline.compile Model.teams
          ⟨"Team", [.boardNotes, .rankedNotes, .firstPinned].flatMap IncludeChain.operators⟩ = .ok t' ∧
        Inclusion.Merges Model.teams requests t.includes ∧ Inclusion.Shuffled t.includes t'.includes ∧
        (Inclusion.node? ["Boards"] "Notes" t.includes).any Inclusion.isRestricted = true := by
  obtain ⟨requests, hrequests⟩ : ∃ requests, requestedChains? Model.teams
      ⟨"Team", [.rankedNotes, .boardNotes, .firstPinned].flatMap IncludeChain.operators⟩ = some requests :=
    ⟨_, rfl⟩
  obtain ⟨t, ht, hrestricted⟩ : ∃ t, Pipeline.compile Model.teams
      ⟨"Team", [.rankedNotes, .boardNotes, .firstPinned].flatMap IncludeChain.operators⟩ = .ok t ∧
        (Inclusion.node? ["Boards"] "Notes" t.includes).any Inclusion.isRestricted = true :=
    ⟨_, rfl, rfl⟩
  obtain ⟨hmerges, -, -, hother⟩ := compile_merges hrequests ht
  obtain ⟨t', ht', -, hshuffled⟩ := hother [.rankedNotes, .boardNotes, .firstPinned]
    [.boardNotes, .rankedNotes, .firstPinned] rfl (.swap _ _ _)
  exact ⟨requests, t, t', hrequests, ht, ht', hmerges, hshuffled, hrestricted⟩

end Pipeline

end DocumentQuery
