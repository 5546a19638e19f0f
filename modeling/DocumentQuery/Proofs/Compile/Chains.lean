import DocumentQuery.Proofs.Compile.Growth
import DocumentQuery.Proofs.Compile.Restrictions
import DocumentQuery.Proofs.Compile.Steps

/-!
# Chains of navigations

An operator that loads navigations names a chain of them, from a root or from where the operator before it
ended, and may restrict the last one (`RequestedChain`). A pipeline that has only such operators asks for a
list of chains (`Pipeline.requestedChains?`), and to compile it is to carry out the insertions of each of
them, one after the other (`Pipeline.compile_eq_ok`): first what is on the way, without restrictions, then
the last navigation with those it was given (`RequestedChain.insertions`).

Nothing is lost by reading a pipeline this way. A chain whose names are no navigations of the model is no
chain, and neither the pipeline nor the list of chains has a result then; a chain with restrictions that are
refused is a chain, and `RequestedChain.insertions` fails as the pipeline does.

## Main definitions

* `RequestedChain` — a chain of navigations and where it starts
* `RequestedChain.insertions` — what is put into a tree for a chain
* `Pipeline.requestedChains?` — the chains that a pipeline asks for, if it does nothing else
-/

namespace DocumentQuery

variable {m : Model} {target : String} {tree tree' : List Inclusion}

namespace Inclusion

variable {typeName : String} {path path' : List String}

/-- The insertions of navigations without restrictions, one below the other, from a path on. These are the
navigations that are only passed on the way to the last one. -/
def along (path : List String) : List String → List Insertion
  | [] => []
  | name :: names => ⟨path, plain name⟩ :: along (path ++ [name]) names

/-- The type at the end of a path is found by going through the first navigation and on from its target. -/
theorem typeAt_cons_eq_ok {name : String} {names : List String} :
    typeAt m typeName (name :: names) = .ok target ↔
      ∃ next, target? m typeName name = some next ∧ typeAt m next names = .ok target := by
  rw [typeAt, target?, Model.typeNamed]
  cases m.type? typeName with
  | none => simp
  | some type =>
    cases hnavigation : type.navigation? name with
    | none => simp [hnavigation]
    | some navigation => simp [hnavigation]

/-- A chain of navigations is put into a tree one by one, the last one with its restrictions. -/
theorem addNames_eq_ok {restrictions : List Restriction} {through : List String} {name : String}
    (htarget : typeAt m typeName (through ++ [name]) = .ok target) :
    addNames m restrictions typeName path tree (through ++ [name]) = .ok (tree', path') ↔
      ∃ inclusion, restrictions.foldlM (restrict m target) (plain name) = .ok inclusion ∧
        (along path through ++ [Insertion.mk (path ++ through) inclusion]).foldlM Insertion.run tree =
          .ok tree' ∧
          path' = path ++ through ++ [name] := by
  induction through generalizing typeName path tree with
  | nil =>
    obtain ⟨next, hnext, hlast⟩ := typeAt_cons_eq_ok.mp htarget
    -- the last name of the chain gets the restrictions, those before it are put in plain
    cases hlast
    rw [List.nil_append, addNames, hnext]
    simp only [List.isEmpty_nil, if_true, Except.bind_eq_ok]
    refine exists_congr fun inclusion => and_congr_right fun _ => ?_
    rw [List.append_nil]
    constructor
    · rintro ⟨grown, hgrown, h⟩
      cases h
      exact ⟨Except.bind_eq_ok.mpr ⟨_, hgrown, rfl⟩, rfl⟩
    · rintro ⟨h, rfl⟩
      obtain ⟨grown, hgrown, h⟩ := Except.bind_eq_ok.mp h
      cases h
      exact ⟨_, hgrown, rfl⟩
  | cons first through ih =>
    obtain ⟨next, hnext, hrest⟩ := typeAt_cons_eq_ok.mp htarget
    rw [List.cons_append, addNames, hnext]
    dsimp only
    rw [if_neg (by simp), pure_bind, along, List.append_cons path first through]
    constructor
    · intro h
      obtain ⟨grown, hgrown, h⟩ := Except.bind_eq_ok.mp h
      obtain ⟨inclusion, hinclusion, hsteps, hpath⟩ := (ih hrest).mp h
      exact ⟨inclusion, hinclusion, Except.bind_eq_ok.mpr ⟨grown, hgrown, hsteps⟩, hpath⟩
    · rintro ⟨inclusion, hinclusion, hsteps, hpath⟩
      obtain ⟨grown, hgrown, hsteps⟩ := Except.bind_eq_ok.mp hsteps
      exact Except.bind_eq_ok.mpr ⟨grown, hgrown, (ih hrest).mpr ⟨inclusion, hinclusion, hsteps, hpath⟩⟩

/-- Every insertion of a chain is below the one before. -/
theorem grounded_along {known : List (List String)} (h : path = [] ∨ path ∈ known) (names : List String) :
    Insertion.Grounded known (along path names) ∧
      (path ++ names = [] ∨ path ++ names ∈ known ++ (along path names).map Insertion.path) := by
  induction names generalizing path known with
  | nil => simpa [along, Insertion.Grounded] using h
  | cons name names ih =>
    have hnext : path ++ [name] ∈ known ++ [path ++ [name]] := List.mem_append_right _ (by simp)
    obtain ⟨hgrounded, hend⟩ := ih (.inr hnext)
    refine ⟨⟨h, hgrounded⟩, ?_⟩
    rw [List.append_cons]
    simpa [along, Insertion.path, plain] using hend

/-- What is put into a tree on the way is not restricted, and is on the way. -/
theorem of_mem_along {names : List String} {s : Insertion} (hs : s ∈ along path names) :
    s.path <+: path ++ names ∧ s.inclusion.isRestricted = false ∧ s.inclusion.nested = [] := by
  induction names generalizing path with
  | nil => cases hs
  | cons name names ih =>
    rw [List.append_cons]
    rcases List.mem_cons.mp hs with rfl | hs
    · exact ⟨List.prefix_append _ _, rfl, rfl⟩
    · exact ih hs

/-- Restrictions leave the name of a navigation and what is below it. -/
theorem foldlM_restrict {restrictions : List Restriction} {i i' : Inclusion}
    (h : restrictions.foldlM (restrict m target) i = .ok i') :
    i'.navigation = i.navigation ∧ i'.nested = i.nested := by
  induction restrictions generalizing i with
  | nil =>
    cases h
    exact ⟨rfl, rfl⟩
  | cons restriction restrictions ih =>
    rw [List.foldlM_cons] at h
    obtain ⟨next, hnext, h⟩ := Except.bind_eq_ok.mp h
    obtain ⟨hname, hnested⟩ := ih h
    cases restrict_spec hnext <;> exact ⟨hname, hnested⟩

end Inclusion

/-! ## Requested chains -/

/-- A chain of navigations that an operator asks for. It is what the lambda of the operator is read as,
together with where the chain starts and the type it leads to. -/
structure RequestedChain where
  /-- The path of the navigation that the chain continues, empty for a chain from the root. -/
  parent : List String
  /-- The navigations on the way. -/
  through : List String
  /-- The last navigation. -/
  name : String
  /-- The entity type of the last navigation, in whose terms its restrictions are written. -/
  targetType : String
  /-- What restricts the last navigation, in the order of the operators on it. -/
  restrictions : List Restriction

namespace RequestedChain

/-- The path to the last navigation. -/
def path (r : RequestedChain) : List String :=
  r.parent ++ r.through ++ [r.name]

/-- The last navigation with its restrictions. -/
def inclusion (m : Model) (r : RequestedChain) : Except QueryError Inclusion :=
  r.restrictions.foldlM (Inclusion.restrict m r.targetType) (.plain r.name)

/-- What is put into a tree for a chain: the navigations on the way without restrictions, and then the last
one with those it was given. It fails if a restriction is refused, before anything is put in. -/
def insertions (m : Model) (r : RequestedChain) : Except QueryError (List Insertion) := do
  let inclusion ← r.inclusion m
  return Inclusion.along r.parent r.through ++ [⟨r.parent ++ r.through, inclusion⟩]

/-- The chain that a lambda asks for below a path, if all its names are navigations. -/
def ofLambda? (m : Model) (root : String) (parent : List String) (navigation : Lambda) :
    Option RequestedChain := do
  let typeName ← (Inclusion.typeAt m root parent).toOption
  let chain ← (NavigationChain.ofExpr navigation.parameter navigation.body).toOption
  let targetType ← (Inclusion.typeAt m typeName chain.names).toOption
  let name ← chain.names.getLast?
  return ⟨parent, chain.names.dropLast, name, targetType, chain.restrictions⟩

variable {root : String} {parent last : List String} {navigation : Lambda} {r : RequestedChain}
  {steps : List Insertion}

theorem insertions_eq_ok : r.insertions m = .ok steps ↔ ∃ inclusion, r.inclusion m = .ok inclusion ∧
    steps = Inclusion.along r.parent r.through ++ [⟨r.parent ++ r.through, inclusion⟩] := by
  rw [insertions, Except.bind_eq_ok]
  exact exists_congr fun inclusion => and_congr_right fun _ =>
    ⟨fun h => (Except.ok.inj h).symm, fun h => h ▸ rfl⟩

/-- The chain of a lambda consists of the names and the restrictions that the lambda is read as. -/
theorem ofLambda?_eq_some (hr : ofLambda? m root parent navigation = some r) :
    r.parent = parent ∧ NavigationChain.ofExpr navigation.parameter navigation.body =
        .ok ⟨r.through ++ [r.name], r.restrictions⟩ ∧
      ∃ typeName, Inclusion.typeAt m root parent = .ok typeName ∧
        Inclusion.typeAt m typeName (r.through ++ [r.name]) = .ok r.targetType := by
  obtain ⟨typeName, htype, hr⟩ := Option.bind_eq_some_iff.mp hr
  obtain ⟨⟨names, restrictions⟩, hchain, hr⟩ := Option.bind_eq_some_iff.mp hr
  obtain ⟨target, htarget, hr⟩ := Option.bind_eq_some_iff.mp hr
  obtain ⟨name, hname, hr⟩ := Option.bind_eq_some_iff.mp hr
  cases hr
  rw [← Option.mem_def, Except.mem_toOption] at htype hchain htarget
  obtain ⟨through, rfl⟩ := List.getLast?_eq_some_iff.mp hname
  rw [List.dropLast_concat]
  exact ⟨rfl, hchain, typeName, htype, htarget⟩

/-- A chain is put into a tree by its insertions, one after the other, and the path of its last navigation is
handed on to the operator that continues it. -/
theorem addChain_eq_ok (hr : ofLambda? m root parent navigation = some r) :
    Inclusion.addChain m root parent navigation tree = .ok (tree', last) ↔
      ∃ steps, r.insertions m = .ok steps ∧ steps.foldlM Insertion.run tree = .ok tree' ∧
        last = r.path := by
  obtain ⟨rfl, hchain, typeName, htype, htarget⟩ := ofLambda?_eq_some hr
  rw [Inclusion.addChain, htype, hchain]
  refine (Inclusion.addNames_eq_ok htarget).trans ?_
  constructor
  · rintro ⟨inclusion, hinclusion, hrest⟩
    exact ⟨_, insertions_eq_ok.mpr ⟨inclusion, hinclusion, rfl⟩, hrest⟩
  · rintro ⟨steps, hsteps, hrest⟩
    obtain ⟨inclusion, hinclusion, rfl⟩ := insertions_eq_ok.mp hsteps
    exact ⟨inclusion, hinclusion, hrest⟩

/-- The last navigation of a chain is put at the end of its path. -/
theorem exists_last (hsteps : r.insertions m = .ok steps) :
    ∃ inclusion, r.inclusion m = .ok inclusion ∧ inclusion.nested = [] ∧
      (⟨r.parent ++ r.through, inclusion⟩ : Insertion).path = r.path ∧
      steps = Inclusion.along r.parent r.through ++ [⟨r.parent ++ r.through, inclusion⟩] := by
  obtain ⟨inclusion, hinclusion, hsteps⟩ := insertions_eq_ok.mp hsteps
  obtain ⟨hname, hnested⟩ := Inclusion.foldlM_restrict hinclusion
  exact ⟨inclusion, hinclusion, hnested, congrArg (r.parent ++ r.through ++ [·]) hname, hsteps⟩

/-- The path of a chain is the path of one of its insertions. -/
theorem mem_path (hsteps : r.insertions m = .ok steps) : r.path ∈ steps.map Insertion.path := by
  obtain ⟨inclusion, -, -, hpath, rfl⟩ := exists_last hsteps
  rw [List.map_append]
  exact List.mem_append_right _ (List.mem_singleton.mpr hpath.symm)

/-- The insertions of a chain that starts at a navigation that is there are below what is there, one by one. -/
theorem grounded_insertions {known : List (List String)} (hsteps : r.insertions m = .ok steps)
    (h : r.parent = [] ∨ r.parent ∈ known) : Insertion.Grounded known steps := by
  obtain ⟨inclusion, -, -, -, rfl⟩ := exists_last hsteps
  obtain ⟨hgrounded, hend⟩ := Inclusion.grounded_along h r.through
  exact Insertion.grounded_append.mpr ⟨hgrounded, hend, trivial⟩

/-- What is put into a tree for a chain is on its way, and only the last navigation is restricted. -/
theorem of_mem_insertions (hsteps : r.insertions m = .ok steps) {s : Insertion} (hs : s ∈ steps) :
    s.path <+: r.path ∧ s.inclusion.nested = [] ∧
      (s.inclusion.isRestricted = true → s.path = r.path ∧ r.inclusion m = .ok s.inclusion) := by
  obtain ⟨inclusion, hinclusion, hnested, hpath, rfl⟩ := exists_last hsteps
  rcases List.mem_append.mp hs with hs | hs
  · obtain ⟨hway, hplain, hnested⟩ := Inclusion.of_mem_along hs
    refine ⟨hway.trans (List.prefix_append _ _), hnested, fun hrestricted => ?_⟩
    rw [hplain] at hrestricted
    cases hrestricted
  · cases List.mem_singleton.mp hs
    exact ⟨hpath ▸ List.prefix_rfl, hnested, fun _ => ⟨hpath, hinclusion⟩⟩

end RequestedChain

/-! ## Pipelines of includes -/

namespace Operator

/-- The path below which an operator loads a chain, and the chain. -/
def loading? (last : Option (List String)) : Operator → Option (List String × Lambda)
  | .include navigation => some ([], navigation)
  | .thenInclude navigation => last.map fun path => (path, navigation)
  | _ => none

/-- A chain begins at the root or where the include before ended. -/
theorem parent_of_loading? {op : Operator} {last : Option (List String)} {parent : List String}
    {navigation : Lambda} (h : op.loading? last = some (parent, navigation)) :
    parent = [] ∨ last = some parent := by
  cases op with
  | «include» _ =>
    cases h
    exact .inl rfl
  | thenInclude _ =>
    obtain ⟨path, hlast, heq⟩ := Option.map_eq_some_iff.mp h
    cases heq
    exact .inr hlast
  | _ => cases h

end Operator

/-- The chains that operators ask for, given the path of the include before them, if all operators load
navigations. -/
def chainsOf? (m : Model) (root : String) :
    Option (List String) → List Operator → Option (List RequestedChain)
  | _, [] => some []
  | last, op :: ops => do
    let (parent, navigation) ← op.loading? last
    let r ← RequestedChain.ofLambda? m root parent navigation
    let rs ← chainsOf? m root (some r.path) ops
    return r :: rs

/-- The chains of an operator and more are its chain and those of the others, which start where it ended. -/
theorem chainsOf?_cons_eq_some {root : String} {last : Option (List String)} {op : Operator}
    {ops : List Operator} {rs : List RequestedChain} (h : chainsOf? m root last (op :: ops) = some rs) :
    ∃ parent navigation r rest, op.loading? last = some (parent, navigation) ∧
      RequestedChain.ofLambda? m root parent navigation = some r ∧
      chainsOf? m root (some r.path) ops = some rest ∧ rs = r :: rest := by
  obtain ⟨⟨parent, navigation⟩, hop, h⟩ := Option.bind_eq_some_iff.mp h
  obtain ⟨r, hr, h⟩ := Option.bind_eq_some_iff.mp h
  obtain ⟨rest, hrest, h⟩ := Option.bind_eq_some_iff.mp h
  cases h
  exact ⟨parent, navigation, r, rest, hop, hr, hrest, rfl⟩

/-- The chains that a pipeline asks for, if all its operators load navigations. An operator that does anything
else, or that continues an include where there is none, leaves no list of chains. -/
def Pipeline.requestedChains? (m : Model) (pipeline : Pipeline) : Option (List RequestedChain) := do
  let root ← (m.entityNamed pipeline.root).toOption
  chainsOf? m root.name none pipeline.operators

namespace Progress

variable {p p' : Progress} {parent : List String} {navigation : Lambda} {r : RequestedChain} {op : Operator}
  {ops : List Operator} {rs : List RequestedChain} {t : Template}

/-- A template under construction with another tree, in which an include was put last. -/
def loading (p : Progress) (tree : List Inclusion) (last : List String) : Progress :=
  { p with template := { p.template with includes := tree }, lastInclude := some last }

/-- While a pipeline filters, an operator that loads a chain puts it into the tree. -/
theorem step_loading (hstage : p.stage = .filtering)
    (hop : op.loading? p.lastInclude = some (parent, navigation)) :
    p.step m op = p.addInclude m parent navigation := by
  rw [step, hstage, if_neg (by decide)]
  cases op with
  | «include» navigation =>
    cases hop
    rw [apply, require, hstage]
    rfl
  | thenInclude navigation =>
    obtain ⟨path, hlast, heq⟩ := Option.map_eq_some_iff.mp hop
    cases heq
    rw [apply, require, hstage, hlast]
    rfl
  | _ => cases hop

/-- A chain is taken into the template under construction exactly if its insertions can be carried out on the
tree so far. -/
theorem addInclude_eq_ok
    (hr : RequestedChain.ofLambda? m p.template.entityType parent navigation = some r) :
    p.addInclude m parent navigation = .ok p' ↔
      ∃ steps tree, r.insertions m = .ok steps ∧
        steps.foldlM Insertion.run p.template.includes = .ok tree ∧
        p' = p.loading tree r.path := by
  rw [addInclude, Except.bind_eq_ok]
  constructor
  · rintro ⟨⟨tree, last⟩, hchain, h⟩
    obtain ⟨steps, hsteps, hrun, rfl⟩ := (RequestedChain.addChain_eq_ok hr).mp hchain
    cases h
    exact ⟨steps, tree, hsteps, hrun, rfl⟩
  · rintro ⟨steps, tree, hsteps, hrun, rfl⟩
    exact ⟨(tree, r.path), (RequestedChain.addChain_eq_ok hr).mpr ⟨steps, hsteps, hrun, rfl⟩, rfl⟩

/-- Operators that load navigations are run by the insertions of their chains: the run succeeds exactly if
every chain has its insertions and all of them, in order, can be carried out. Only the tree changes. -/
theorem run_eq_ok (hstage : p.stage = .filtering)
    (hrs : chainsOf? m p.template.entityType p.lastInclude ops = some rs) :
    (∃ done, ops.foldlM (step m) p = .ok done ∧ done.template = t) ↔
      ∃ steps tree, rs.mapM (RequestedChain.insertions m) = .ok steps ∧
        steps.flatten.foldlM Insertion.run p.template.includes = .ok tree ∧
        t = { p.template with includes := tree } := by
  induction ops generalizing p rs with
  | nil =>
    cases hrs
    constructor
    · rintro ⟨done, hdone, rfl⟩
      cases hdone
      exact ⟨[], p.template.includes, rfl, rfl, rfl⟩
    · rintro ⟨steps, tree, hsteps, hrun, rfl⟩
      cases hsteps
      cases hrun
      exact ⟨p, rfl, rfl⟩
  | cons op ops ih =>
    obtain ⟨parent, navigation, r, rest, hop, hr, hrest, rfl⟩ := chainsOf?_cons_eq_some hrs
    constructor
    · rintro ⟨done, hdone, rfl⟩
      rw [List.foldlM_cons, step_loading hstage hop] at hdone
      obtain ⟨next, hnext, hdone⟩ := Except.bind_eq_ok.mp hdone
      obtain ⟨steps, tree, hsteps, hrun, rfl⟩ := (addInclude_eq_ok hr).mp hnext
      obtain ⟨steps', tree', hsteps', hrun', htemplate⟩ :=
        (ih (p := p.loading tree r.path) hstage hrest).mp ⟨done, hdone, rfl⟩
      -- the insertions of the first chain come before those of the others
      refine ⟨steps :: steps', tree', ?_, ?_, htemplate⟩
      · rw [List.mapM_cons, hsteps, hsteps']
        rfl
      · rw [List.flatten_cons, List.foldlM_append, hrun]
        exact hrun'
    · rintro ⟨steps, tree, hsteps, hrun, rfl⟩
      rw [List.mapM_cons] at hsteps
      obtain ⟨first, hfirst, hsteps⟩ := Except.bind_eq_ok.mp hsteps
      obtain ⟨others, hothers, hsteps⟩ := Except.bind_eq_ok.mp hsteps
      cases hsteps
      rw [List.flatten_cons, List.foldlM_append] at hrun
      obtain ⟨grown, hgrown, hrun⟩ := Except.bind_eq_ok.mp hrun
      have hnext := (addInclude_eq_ok hr).mpr ⟨first, grown, hfirst, hgrown, rfl⟩
      obtain ⟨done, hdone, htemplate⟩ :=
        (ih (p := p.loading grown r.path) hstage hrest).mpr ⟨others, tree, hothers, hrun, rfl⟩
      refine ⟨done, ?_, htemplate⟩
      rw [List.foldlM_cons, step_loading hstage hop, hnext]
      exact hdone

end Progress

/-- A pipeline of includes is compiled by the insertions of its chains, all of them in the order of the
operators, into a tree that is empty at first. This turns questions about pipelines of includes into questions
about trees. -/
theorem Pipeline.compile_eq_ok {root collection key : String} {type : TypeDecl} {ops : List Operator}
    {rs : List RequestedChain} {t : Template} (hroot : m.entityNamed root = .ok type)
    (hkind : type.kind = .entity collection key) (hrs : chainsOf? m type.name none ops = some rs) :
    Pipeline.compile m ⟨root, ops⟩ = .ok t ↔
      ∃ steps tree, rs.mapM (RequestedChain.insertions m) = .ok steps ∧
        steps.flatten.foldlM Insertion.run [] = .ok tree ∧
        t = { Template.all collection type.name key with includes := tree } := by
  refine Iff.trans ?_ (Progress.run_eq_ok (p := ⟨Template.all collection type.name key, .filtering, none⟩)
    rfl hrs)
  simp only [compile, hroot, Except.bind_eq_ok, Except.ok.injEq, exists_eq_left', hkind, pure, Except.pure]

end DocumentQuery
